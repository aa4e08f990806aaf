import Undelete.Proofs.Bytes.Slices
import Undelete.Proofs.Recovery.Obstacles

/-!
The slots of a master boot record as they are written. Every 16 bytes are a slot, so that nothing
of a table is lost when it is read, and a slot whose numbers fit their fields comes back from its
bytes.
-/

namespace Undelete

/-- A field that is not cut off is written back as it was. -/
theorem Bytes.ofNat_field {data : Bytes} {offset width : Nat}
    (inside : offset + width ≤ data.length) :
    ofNat width (data.field offset width) = data.slice offset width := by
  have long : (data.slice offset width).length = width := by
    rw [length_slice]
    omega
  have back := ofNat_littleEndian (data.slice offset width)
  rwa [long] at back

namespace Chs

/-- Six bits for the sector and ten for the cylinder. -/
structure Fits (chs : Chs) : Prop where
  head : chs.head < Bytes.limit 1
  sector : chs.sector < 64
  cylinder : chs.cylinder < 1024

theorem length_encode (chs : Chs) : chs.encode.length = 3 := by
  simp [encode, Bytes.length_ofNat]

theorem decode_encode {chs : Chs} (fits : chs.Fits) : decode chs.encode = chs := by
  obtain ⟨head, sector, cylinder⟩ := chs
  obtain ⟨headFits, sectorFits, cylinderFits⟩ := fits
  have limit : Bytes.limit 1 = 256 := rfl
  simp only [limit] at headFits sectorFits cylinderFits
  simp only [decode, encode, Bytes.field, Bytes.slice, Bytes.ofNat, Bytes.littleEndian,
    List.cons_append, List.nil_append, List.drop_succ_cons, List.drop_zero, List.take_succ_cons,
    List.take_zero, UInt8.toNat_ofNat', Chs.mk.injEq]
  omega

theorem encode_decode {data : Bytes} (whole : data.length = 3) : (decode data).encode = data := by
  obtain ⟨head, packed, low, rfl⟩ := List.length_eq_three.mp whole
  have small := low.toNat_lt
  have middle :
      (packed.toNat / 64 * 256 + low.toNat) / 256 * 64 + packed.toNat % 64 = packed.toNat := by
    omega
  have last : UInt8.ofNat (packed.toNat / 64 * 256 + low.toNat) = low := by
    apply UInt8.toNat_inj.mp
    rw [UInt8.toNat_ofNat']
    omega
  simp only [decode, encode, Bytes.field, Bytes.slice, Bytes.ofNat, Bytes.littleEndian,
    List.cons_append, List.nil_append, List.drop_succ_cons, List.drop_zero, List.take_succ_cons,
    List.take_zero, Nat.mul_zero, Nat.add_zero, middle, last, UInt8.ofNat_toNat]

end Chs

namespace MbrEntry

/-- Every number fits its field. -/
structure Fits (entry : MbrEntry) : Prop where
  boot : entry.bootIndicator < Bytes.limit 1
  first : entry.startChs.Fits
  code : entry.partitionType < Bytes.limit 1
  last : entry.endChs.Fits
  start : entry.startLba < Bytes.limit 4
  count : entry.totalSectors < Bytes.limit 4

theorem length_encode (entry : MbrEntry) : entry.encode.length = size := by
  simp [encode, size, Bytes.length_ofNat, Chs.length_encode]

theorem length_of_mem_encoded (entries : List MbrEntry) :
    ∀ part ∈ entries.map encode, part.length = size := by
  intro part member
  obtain ⟨entry, -, rfl⟩ := List.mem_map.mp member
  exact entry.length_encode

theorem decode_encode {entry : MbrEntry} (fits : entry.Fits) : decode entry.encode = entry := by
  simp (disch := simp only [Bytes.length_ofNat, Chs.length_encode, Nat.reduceSub,
      Nat.reduceLeDiff]) only
    [decode, encode, Bytes.field, List.append_assoc, Bytes.slice_append_right,
    Bytes.slice_append_of_length, Bytes.slice_of_length, Bytes.length_ofNat, Chs.length_encode,
    Nat.reduceSub, Nat.sub_self, Bytes.littleEndian_ofNat_of_lt fits.boot,
    Bytes.littleEndian_ofNat_of_lt fits.code, Bytes.littleEndian_ofNat_of_lt fits.start,
    Bytes.littleEndian_ofNat_of_lt fits.count, Chs.decode_encode fits.first,
    Chs.decode_encode fits.last]

theorem encode_decode {data : Bytes} (whole : data.length = size) :
    (decode data).encode = data := by
  have sixteen : data.length = 16 := whole
  have chs (offset : Nat) (inside : offset + 3 ≤ 16) :
      (Chs.decode (data.slice offset 3)).encode = data.slice offset 3 := by
    apply Chs.encode_decode
    rw [Bytes.length_slice]
    omega
  calc (decode data).encode
      = data.slice 0 1 ++ data.slice 1 3 ++ data.slice 4 1 ++ data.slice 5 3 ++ data.slice 8 4
          ++ data.slice 12 4 := by
        simp (disch := omega) only [encode, decode, Bytes.ofNat_field, chs]
    _ = data.slice 0 16 := by simp only [← Bytes.slice_add data 0]
    _ = data := Bytes.slice_of_length sixteen

end MbrEntry

namespace Mbr

theorem parse_eq {data : Bytes} (long : size ≤ data.length) : parse data = .ok (decode data) :=
  if_neg (Nat.not_lt.mpr long)

/-- Nothing of a table is lost when it is read. -/
theorem flatMap_encode_slots {data : Bytes} (long : size ≤ data.length) :
    (decode data).slots.flatMap MbrEntry.encode = data.slice tableOffset (4 * MbrEntry.size) := by
  have table : (data.slice tableOffset (4 * MbrEntry.size)).length = MbrEntry.size * 4 := by
    have wide : tableOffset + MbrEntry.size * 4 ≤ size := by decide
    rw [Bytes.length_slice]
    omega
  have same : Bytes.pieces MbrEntry.size 4 (data.drop tableOffset) =
      Bytes.pieces MbrEntry.size 4 (data.slice tableOffset (4 * MbrEntry.size)) := by
    rw [← Bytes.pieces_append (Nat.le_of_eq table.symm), Bytes.slice, List.take_append_drop]
  have back : ∀ piece ∈ Bytes.pieces MbrEntry.size 4 (data.slice tableOffset (4 * MbrEntry.size)),
      (MbrEntry.decode piece).encode = piece := fun piece member =>
    MbrEntry.encode_decode (Bytes.length_of_mem_pieces table member)
  rw [decode, same, List.flatMap_map, List.flatMap_def, List.map_congr_left back, List.map_id',
    Bytes.flatten_pieces table]

/-- Four slots come back from their bytes, whatever stands around them. -/
theorem slots_decode {entries : List MbrEntry} {front : Bytes} (four : entries.length = 4)
    (fits : ∀ entry ∈ entries, entry.Fits) (before : front.length = tableOffset) (rest : Bytes) :
    (decode (front ++ entries.flatMap MbrEntry.encode ++ rest)).slots = entries := by
  have pieces := Bytes.pieces_flatten (MbrEntry.length_of_mem_encoded entries) rest
  rw [List.length_map, four, ← List.flatMap_def] at pieces
  have back : ∀ entry ∈ entries, MbrEntry.decode entry.encode = entry := fun entry member =>
    MbrEntry.decode_encode (fits entry member)
  simp only [decode, List.append_assoc, List.drop_left' before, pieces, List.map_map]
  exact (List.map_congr_left back).trans (List.map_id entries)

theorem isValid_decode {data : Bytes} (signed : data.slice 510 2 = [0x55, 0xAA]) :
    (decode data).isValid = true := by
  rw [isValid, decode, Bytes.field, signed]
  rfl

end Mbr

namespace Detection

/-- A disk with a signature in its first sector and no GPT header in its second has an MBR. -/
theorem ofSource_of_signed [Digests] {source : Source} {data : Bytes}
    (known : source.sectorSize ≠ 0)
    (first : source.read 0 (max source.sectorSize Mbr.size) = .ok data)
    (signed : data.slice 510 2 = [0x55, 0xAA])
    (headless : ∀ second, source.read 1 (max source.sectorSize Mbr.size) = .ok second →
      second.slice 0 8 ≠ GptHeader.magic) :
    ∃ detection, ofSource source = .ok detection ∧ detection.scheme = .mbr ∧
      detection.mbr = Mbr.decode data := by
  refine ⟨_, (ofSource_eq known).trans (congrArg _ first), ?_, rfl⟩
  have invalid : ((source.read 1 (max source.sectorSize Mbr.size)).toOption.map
      GptHeader.decode).any GptHeader.isValid = false := by
    cases second : source.read 1 (max source.sectorSize Mbr.size) with
    | error failure => rfl
    | ok bytes => exact decide_eq_false (headless bytes second)
  change schemeOf _ _ = _
  rw [schemeOf, invalid, Mbr.isValid_decode signed]
  rfl

theorem partitions_of_mbr [Digests] {detection : Detection} (scheme : detection.scheme = .mbr)
    (source : Source) :
    detection.partitions source = .ok (detection.mbr.partitions.map .mbr, []) := by
  unfold partitions
  rw [scheme]
  rfl

end Detection

theorem Partition.endLba_mbr {entry : MbrEntry} (present : entry.totalSectors ≠ 0) :
    (mbr entry).endLba + 1 = (mbr entry).startLba + (mbr entry).sectorCount := by
  simp only [endLba, startLba, sectorCount]
  omega

namespace Mbr

/-- A partition table is written back as it was read and read back as it was written. A disk that
has no other table lists the slots that are not empty, in order. -/
theorem table_exact [Digests] :
    (∀ data : Bytes, 512 ≤ data.length → ∃ mbr, parse data = .ok mbr ∧ mbr.slots.length = 4 ∧
      mbr.slots.flatMap MbrEntry.encode = data.slice 446 64) ∧
    (∀ (entries : List MbrEntry) (front rest : Bytes), entries.length = 4 →
      (∀ entry ∈ entries, entry.Fits) → front.length = 446 → 2 ≤ rest.length →
      ∃ mbr, parse (front ++ entries.flatMap MbrEntry.encode ++ rest) = .ok mbr ∧
        mbr.slots = entries) ∧
    ∀ (source : Source) (data : Bytes), source.sectorSize ≠ 0 →
      source.read 0 (max source.sectorSize 512) = .ok data → data.slice 510 2 = [0x55, 0xAA] →
      (∀ second, source.read 1 (max source.sectorSize 512) = .ok second →
        second.slice 0 8 ≠ GptHeader.magic) →
      ∃ mbr detection, parse data = .ok mbr ∧ Detection.ofSource source = .ok detection ∧
        detection.scheme = .mbr ∧
        detection.partitions source =
          .ok ((mbr.slots.filter fun entry => entry.totalSectors ≠ 0).map .mbr, []) ∧
        ∀ entry ∈ mbr.slots, entry.totalSectors ≠ 0 →
          (Partition.mbr entry).startLba = entry.startLba ∧
          (Partition.mbr entry).sectorCount = entry.totalSectors ∧
          (Partition.mbr entry).endLba + 1 =
            (Partition.mbr entry).startLba + (Partition.mbr entry).sectorCount := by
  refine ⟨?_, ?_, ?_⟩
  · intro data long
    exact ⟨decode data, parse_eq long, length_slots data, flatMap_encode_slots long⟩
  · intro entries front rest four fits before behind
    refine ⟨_, parse_eq ?_, slots_decode four fits before rest⟩
    have table : (entries.flatMap MbrEntry.encode).length = 64 := by
      rw [List.flatMap_def, Bytes.length_flatten (MbrEntry.length_of_mem_encoded entries),
        List.length_map, four]
      rfl
    rw [List.length_append, List.length_append, table, before]
    change 512 ≤ _
    omega
  · intro source data known first signed headless
    obtain ⟨detection, detected, scheme, mbr⟩ :=
      Detection.ofSource_of_signed known first signed headless
    have long : size ≤ data.length := by
      rw [Source.length_of_read first]
      exact Nat.le_max_right _ _
    refine ⟨decode data, detection, parse_eq long, detected, scheme, ?_, ?_⟩
    · rw [Detection.partitions_of_mbr scheme, mbr]
      rfl
    · exact fun entry _ present => ⟨rfl, rfl, Partition.endLba_mbr present⟩

/-- The largest addresses that a slot has room for. -/
def farEntry : MbrEntry := ⟨0x80, ⟨254, 63, 1023⟩, 0x0C, ⟨255, 62, 769⟩, 0xFFFFFFFF, 0xFFFFFFFF⟩

theorem fits_farEntry : farEntry.Fits :=
  ⟨by decide, ⟨by decide, by decide, by decide⟩, by decide, ⟨by decide, by decide, by decide⟩,
    by decide, by decide⟩

/-- Slots of any bytes, slots as large as can be, and a disk with a gap between its partitions. -/
theorem table_exact_far :
    (∃ mbr, parse (List.replicate 512 0xA7) = .ok mbr ∧
      mbr.slots.flatMap MbrEntry.encode = List.replicate 64 0xA7) ∧
    (∃ mbr, parse (List.replicate 446 0 ++ (List.replicate 4 farEntry).flatMap MbrEntry.encode
        ++ [0x55, 0xAA]) = .ok mbr ∧ mbr.slots = List.replicate 4 farEntry) ∧
    ∃ detection, Detection.ofSource (Small.disk [(0x0C, 1, 3), (0, 9, 0), (0x83, 4, 5)] []) =
        .ok detection ∧
      (detection.partitions (Small.disk [(0x0C, 1, 3), (0, 9, 0), (0x83, 4, 5)] [])).map Prod.fst =
        .ok [.mbr ⟨0, ⟨0, 0, 0⟩, 0x0C, ⟨0, 0, 0⟩, 1, 3⟩,
          .mbr ⟨0, ⟨0, 0, 0⟩, 0x83, ⟨0, 0, 0⟩, 4, 5⟩] := by
  obtain ⟨written, stored, listed⟩ := table_exact
  refine ⟨?_, ?_, ?_⟩
  · obtain ⟨mbr, parsed, -, same⟩ :=
      written (List.replicate 512 0xA7) (Nat.le_of_eq List.length_replicate.symm)
    exact ⟨mbr, parsed, same.trans (by decide +kernel)⟩
  · refine stored _ _ _ List.length_replicate (fun entry member => ?_) List.length_replicate
      (by decide)
    rw [List.eq_of_mem_replicate member]
    exact fits_farEntry
  · have first : (Small.disk [(0x0C, 1, 3), (0, 9, 0), (0x83, 4, 5)] []).read 0 512 =
        .ok (Small.table [(0x0C, 1, 3), (0, 9, 0), (0x83, 4, 5)]) := by
      rw [Small.disk, Source.read_ofImage]
      decide +kernel
    have second : (Small.disk [(0x0C, 1, 3), (0, 9, 0), (0x83, 4, 5)] []).read 1 512 =
        .error (.unreadableSector 1) := by
      rw [Small.disk, Source.read_ofImage]
      decide +kernel
    obtain ⟨mbr, detection, parsed, detected, -, partitions, -⟩ :=
      listed _ _ (by decide) first (by decide +kernel) fun _ read => nomatch second.symm.trans read
    refine ⟨detection, detected, ?_⟩
    rw [partitions]
    have long : size ≤ (Small.table [(0x0C, 1, 3), (0, 9, 0), (0x83, 4, 5)]).length := by
      decide +kernel
    cases (parse_eq long).symm.trans parsed
    decide +kernel

end Mbr

end Undelete
