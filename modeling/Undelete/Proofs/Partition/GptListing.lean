import Undelete.Proofs.Partition.GptRecord
import Undelete.Proofs.Recovery.Obstacles

/-!
Listing the partitions of a GPT disk gives back what was written on it. The array is read a sector
at a time, each sector is cut into records, and the records behind the last one that counts are
dropped; all that is one pass over the bytes of the array.
-/

namespace Undelete

/-- Work on a list succeeds with the values that it has on the items. -/
theorem mapM_eq_ok {ε α β : Type} {work : α → Except ε β} {value : α → β} {items : List α}
    (fine : ∀ item ∈ items, work item = .ok (value item)) :
    items.mapM work = .ok (items.map value) := by
  induction items with
  | nil => rfl
  | cons item items ih =>
    rw [List.mapM_cons, fine item List.mem_cons_self,
      ih fun other member => fine other (List.mem_cons_of_mem _ member)]
    rfl

theorem Source.read_eq_of_ok {source : Source} {image : Array UInt8} {sector count : Nat}
    {data : Bytes} (opened : source.contents = some image)
    (answered : source.read sector count = .ok data) :
    data = Bytes.slice image.toList ((source.startLba + sector) * source.sectorSize) count := by
  rw [read_eq_slice, opened] at answered
  dsimp only at answered
  split at answered
  · cases answered
    rfl
  · cases answered

/-- Where a sector can be read, so can the one before it. -/
theorem Source.exists_read_zero {source : Source} {count : Nat} {data : Bytes}
    (answered : source.read 1 count = .ok data) : ∃ first, source.read 0 count = .ok first := by
  rw [read_eq_slice] at answered ⊢
  cases opened : source.contents with
  | none =>
    rw [opened] at answered
    cases answered
  | some image =>
    rw [opened] at answered
    dsimp only at answered ⊢
    split at answered
    next inside =>
      have smaller : source.inRange image.size 0 count = true := by
        simp only [inRange, Bool.and_eq_true, decide_eq_true_eq] at inside ⊢
        rw [Nat.add_zero]
        rw [Nat.add_mul, Nat.one_mul] at inside
        omega
      rw [if_pos smaller]
      exact ⟨_, rfl⟩
    · cases answered

namespace GptHeader

/-- The array that a header points to holds these records, one behind the other, and every sector
with a byte of it can be read. -/
structure Holds (header : GptHeader) (source : Source) (records : List GptRecord) : Prop where
  wide : GptEntry.minSize ≤ header.entrySize
  divides : header.entrySize ∣ source.sectorSize
  few : records.length ≤ maxEntries
  count : header.entryCount = records.length
  fits : ∀ record ∈ records, record.Fits header.entrySize
  readable : ∀ index, index * source.sectorSize < records.length * header.entrySize →
    ∃ data, source.read (header.entriesLba + index) source.sectorSize = .ok data
  written : ∃ image, source.contents = some image ∧
    Bytes.slice image.toList ((source.startLba + header.entriesLba) * source.sectorSize)
      (records.length * header.entrySize) = records.flatMap GptRecord.bytes

variable {header : GptHeader} {source : Source} {records : List GptRecord}

theorem checkShape_of_holds (held : header.Holds source records) :
    header.checkShape source.sectorSize = .ok () := by
  have few : ¬ header.entryCount > maxEntries := by rw [held.count]; exact Nat.not_lt.mpr held.few
  have shaped : ¬ (header.entrySize < GptEntry.minSize ∨
      source.sectorSize % header.entrySize ≠ 0) := by
    rintro (narrow | apart)
    · exact Nat.not_lt.mpr held.wide narrow
    · exact apart (Nat.mod_eq_zero_of_dvd held.divides)
  rw [checkShape, if_neg shaped, if_neg few]

section

variable (held : header.Holds source records)

include held

theorem perSector_pos (known : source.sectorSize ≠ 0) :
    0 < source.sectorSize / header.entrySize :=
  Nat.div_pos (Nat.le_of_dvd (Nat.pos_of_ne_zero known) held.divides)
    (Nat.lt_of_lt_of_le (by decide) held.wide)

theorem entrySize_mul_perSector :
    header.entrySize * (source.sectorSize / header.entrySize) = source.sectorSize :=
  Nat.mul_div_cancel' held.divides

/-- A sector that is read holds a byte of the array. -/
theorem touched_of_lt (known : source.sectorSize ≠ 0) {index : Nat}
    (inside : index < header.arraySectors source.sectorSize) :
    index * source.sectorSize < records.length * header.entrySize := by
  have few : index * (source.sectorSize / header.entrySize) < records.length := by
    have enough := Nat.not_le.mpr inside
    rwa [arraySectors, held.count, Number.ceilDiv_le_iff (perSector_pos held known),
      Nat.not_le] at enough
  have positive : 0 < header.entrySize := Nat.lt_of_lt_of_le (by decide) held.wide
  calc index * source.sectorSize
      = index * (source.sectorSize / header.entrySize) * header.entrySize := by
        rw [Nat.mul_assoc, Nat.mul_comm _ header.entrySize, entrySize_mul_perSector held]
    _ < records.length * header.entrySize := Nat.mul_lt_mul_of_pos_right few positive

/-- The sectors of the array are whole, and together they are one slice of the image. -/
theorem exists_sectors (known : source.sectorSize ≠ 0) {image : Array UInt8}
    (opened : source.contents = some image) :
    ∃ sectors, (List.range (header.arraySectors source.sectorSize)).mapM (fun index =>
        source.read (header.entriesLba + index) source.sectorSize) = .ok sectors ∧
      sectors.length = header.arraySectors source.sectorSize ∧
      (∀ sector ∈ sectors, sector.length = source.sectorSize) ∧
      sectors.flatten = Bytes.slice image.toList
        ((source.startLba + header.entriesLba) * source.sectorSize)
        (header.arraySectors source.sectorSize * source.sectorSize) := by
  let contents (index : Nat) : Bytes := Bytes.slice image.toList
    ((source.startLba + header.entriesLba) * source.sectorSize + index * source.sectorSize)
    source.sectorSize
  have answered : ∀ index ∈ List.range (header.arraySectors source.sectorSize),
      source.read (header.entriesLba + index) source.sectorSize = .ok (contents index) := by
    intro index member
    obtain ⟨data, answered⟩ :=
      held.readable index (touched_of_lt held known (List.mem_range.mp member))
    have place : (source.startLba + (header.entriesLba + index)) * source.sectorSize =
        (source.startLba + header.entriesLba) * source.sectorSize + index * source.sectorSize := by
      rw [← Nat.add_assoc, Nat.add_mul]
    rw [answered, Source.read_eq_of_ok opened answered, place]
  refine ⟨_, mapM_eq_ok answered, ?_, ?_, Bytes.flatten_slices _ _ _ _⟩
  · rw [List.length_map, List.length_range]
  · intro sector member
    obtain ⟨index, inside, rfl⟩ := List.mem_map.mp member
    exact Source.length_of_read (answered index inside)

/-- That slice begins with the bytes of the records. -/
theorem exists_rest {image : Array UInt8} {start sectors : Nat}
    (written : Bytes.slice image.toList start (records.length * header.entrySize) =
      records.flatMap GptRecord.bytes)
    (enough : records.length ≤ source.sectorSize / header.entrySize * sectors) :
    ∃ rest, Bytes.slice image.toList start (sectors * source.sectorSize) =
      (records.map GptRecord.bytes).flatten ++ rest := by
  have whole : sectors * source.sectorSize =
      source.sectorSize / header.entrySize * sectors * header.entrySize := by
    calc sectors * source.sectorSize
        = sectors * (header.entrySize * (source.sectorSize / header.entrySize)) := by
          rw [entrySize_mul_perSector held]
      _ = source.sectorSize / header.entrySize * sectors * header.entrySize := by
          rw [Nat.mul_left_comm, Nat.mul_comm header.entrySize, Nat.mul_comm sectors]
  obtain ⟨more, size⟩ := Nat.exists_eq_add_of_le (Nat.mul_le_mul_right header.entrySize enough)
  rw [whole, size, Bytes.slice_add, written, List.flatMap_def]
  exact ⟨_, rfl⟩

/-- The raw records are those that were written. -/
theorem records_of_holds (known : source.sectorSize ≠ 0) :
    header.records source source.sectorSize = .ok (records.map GptRecord.bytes) := by
  obtain ⟨image, opened, written⟩ := held.written
  obtain ⟨sectors, answered, count, whole, together⟩ := exists_sectors held known opened
  have equal : ∀ part ∈ records.map GptRecord.bytes, part.length = header.entrySize := by
    intro part member
    obtain ⟨record, present, rfl⟩ := List.mem_map.mp member
    exact (held.fits record present).width
  have full : ∀ sector ∈ sectors, sector.length =
      header.entrySize * (source.sectorSize / header.entrySize) := by
    rw [entrySize_mul_perSector held]
    exact whole
  have enough : records.length ≤ source.sectorSize / header.entrySize * sectors.length := by
    rw [count, arraySectors, held.count, Nat.mul_comm]
    exact Number.le_ceilDiv_mul _ (perSector_pos held known)
  obtain ⟨rest, front⟩ := exists_rest held written enough
  have taken : (sectors.flatMap
      (Bytes.pieces header.entrySize (source.sectorSize / header.entrySize))).take
        header.entryCount = records.map GptRecord.bytes := by
    rw [Bytes.flatMap_pieces full, held.count, Bytes.take_pieces enough, together, ← count, front]
    simpa using Bytes.pieces_flatten equal rest
  simp only [GptHeader.records, bind, Except.bind, pure, Except.pure]
  rw [arraySectors] at answered
  rw [answered]
  exact congrArg Except.ok taken

/-- The warning is about the bytes of the records and nothing behind them. -/
theorem partitions_of_holds [Digests] (known : source.sectorSize ≠ 0) :
    header.partitions source source.sectorSize =
      .ok (records.filterMap GptRecord.entry?,
        if Digests.checksum (records.flatMap GptRecord.bytes) = header.arrayCrc then []
        else [.arrayChecksum header.arrayCrc
          (Digests.checksum (records.flatMap GptRecord.bytes))]) := by
  simp only [partitions, checkShape_of_holds held, records_of_holds held known, bind, Except.bind,
    pure, Except.pure, GptRecord.filter_map_decode held.fits, ← List.flatMap_def]

end

/-- Where the shape is rejected, the source is not asked for the array. -/
theorem partitions_of_shape [Digests]
    (odd : header.entrySize < GptEntry.minSize ∨ ¬ header.entrySize ∣ source.sectorSize ∨
      maxEntries < header.entryCount) :
    ∃ text, header.partitions source source.sectorSize = .error (.badPartitionTable text) := by
  have rejected : ∃ text, header.checkShape source.sectorSize = .error (.badPartitionTable text) := by
    unfold checkShape
    split
    next => exact ⟨_, rfl⟩
    next shaped =>
      rw [Nat.dvd_iff_mod_eq_zero] at odd
      have many : header.entryCount > maxEntries := by tauto
      rw [if_pos many]
      exact ⟨_, rfl⟩
  obtain ⟨text, rejected⟩ := rejected
  exact ⟨text, partitions_eq_error_iff.mpr (.inl rejected)⟩

end GptHeader

namespace Detection

/-- A disk whose second sector carries a header with the right signature is a GPT disk, whatever
its first sector holds. -/
theorem ofSource_of_header [Digests] {source : Source} {data : Bytes}
    (known : source.sectorSize ≠ 0)
    (second : source.read 1 (max source.sectorSize Mbr.size) = .ok data)
    (signed : (GptHeader.decode data).isValid = true) :
    ∃ mbr, ofSource source = .ok (ofTables mbr (some (GptHeader.decode data))) ∧
      schemeOf mbr (some (GptHeader.decode data)) = .gpt := by
  obtain ⟨first, answered⟩ := Source.exists_read_zero second
  refine ⟨Mbr.decode first, ?_, ?_⟩
  · rw [ofSource_eq known, answered, second]
    rfl
  · rw [schemeOf, Option.any_some, if_pos signed]

theorem partitions_ofTables [Digests] {source : Source} {mbr : Mbr} {header : GptHeader}
    (known : source.sectorSize ≠ 0) (scheme : schemeOf mbr (some header) = .gpt) :
    (ofTables mbr (some header)).partitions source =
      (header.partitions source source.sectorSize).map fun found =>
        (found.1.map .gpt, found.2) := by
  simp only [partitions, ofTables, scheme, Source.bytesPerSector_eq known, bind, Except.bind]
  cases header.partitions source source.sectorSize with
  | error failure => rfl
  | ok found => rfl

/-- Listing a GPT disk undoes writing one. The used entries come back in array order, with a
warning exactly when the stored checksum is not that of the records. An array of another shape is
refused, and by every source with sectors of this size, so that none of it is read. -/
theorem partitions_of_written [Digests] {source : Source} {data : Bytes}
    (known : source.sectorSize ≠ 0)
    (second : source.read 1 (max source.sectorSize Mbr.size) = .ok data)
    (signed : (GptHeader.decode data).isValid = true) :
    ∃ detection, ofSource source = .ok detection ∧
      (∀ records, (GptHeader.decode data).Holds source records →
        detection.partitions source =
          .ok ((records.filterMap GptRecord.entry?).map .gpt,
            if Digests.checksum (records.flatMap GptRecord.bytes) = (GptHeader.decode data).arrayCrc
            then []
            else [.arrayChecksum (GptHeader.decode data).arrayCrc
              (Digests.checksum (records.flatMap GptRecord.bytes))])) ∧
      ((GptHeader.decode data).entrySize < GptEntry.minSize ∨
          ¬ (GptHeader.decode data).entrySize ∣ source.sectorSize ∨
          GptHeader.maxEntries < (GptHeader.decode data).entryCount →
        ∀ other : Source, other.sectorSize = source.sectorSize →
          ∃ text, detection.partitions other = .error (.badPartitionTable text)) := by
  obtain ⟨mbr, detected, scheme⟩ := ofSource_of_header known second signed
  refine ⟨_, detected, ?_, ?_⟩
  · intro records held
    rw [partitions_ofTables known scheme, GptHeader.partitions_of_holds held known]
    rfl
  · intro odd other same
    rw [← same] at known odd
    obtain ⟨text, failed⟩ := GptHeader.partitions_of_shape odd
    refine ⟨text, ?_⟩
    rw [partitions_ofTables known scheme, failed]
    rfl

end Detection

namespace Small

/-- The second sector of a GPT disk: the array lies behind it. -/
def gptHeader (count size : Nat) : Bytes :=
  sector (GptHeader.magic ++ List.replicate 64 0 ++ Bytes.ofNat 8 2 ++ Bytes.ofNat 4 count
    ++ Bytes.ofNat 4 size)

def gptDisk (count size : Nat) (array : Bytes) : Source :=
  Source.ofImage (sector [] ++ gptHeader count size ++ array).toArray 512

def gptEntry (name : String) (start : Nat) : GptEntry :=
  ⟨Guid.basicData, Guid.linuxFilesystem, start, start + 9, 5, name⟩

def gptRecords : List GptRecord :=
  [.used (gptEntry "💾 Daten" 40) (List.replicate 128 0xFF),
    .unused (List.replicate 240 0xAA), .used (gptEntry "" 50) (List.replicate 128 0)]

/-- Half of the array's last sector is not the array's. -/
def gptArray : Bytes := gptRecords.flatMap GptRecord.bytes ++ List.replicate 256 0xCC

theorem fits_gptEntry {name : String} {start : Nat} (low : start < 100)
    (short : (Text.Utf16.encode name.toList).length ≤ 36) (terminated : '\x00' ∉ name.toList)
    (unmarked : ¬ Text.Utf16.IsMarked (Text.Utf16.bytes name.toList)) :
    (gptEntry name start).Fits := by
  have wide : 200 < Bytes.limit 8 := by decide
  refine ⟨?_, ?_, ?_, short, terminated, unmarked⟩
  · exact Nat.lt_trans low (by omega)
  · change start + 9 < Bytes.limit 8
    omega
  · change 5 < Bytes.limit 8
    omega

theorem fits_gptRecords : ∀ record ∈ gptRecords, record.Fits 256 := by
  intro record member
  simp only [gptRecords, List.mem_cons, List.not_mem_nil, or_false] at member
  rcases member with rfl | rfl | rfl
  · refine ⟨by decide +kernel, fun entry same => ?_⟩
    cases same
    exact ⟨fits_gptEntry (by decide) (by decide) (by decide) (by decide +kernel), by decide⟩
  · exact ⟨by decide +kernel, fun entry same => nomatch same⟩
  · refine ⟨by decide +kernel, fun entry same => ?_⟩
    cases same
    exact ⟨fits_gptEntry (by decide) (by decide) (by decide) (by decide +kernel), by decide⟩

theorem decode_gptHeader [Digests] :
    (GptHeader.decode (gptHeader 3 256)).entriesLba = 2 ∧
      (GptHeader.decode (gptHeader 3 256)).entryCount = 3 ∧
      (GptHeader.decode (gptHeader 3 256)).entrySize = 256 := by
  change (gptHeader 3 256).field 72 8 = 2 ∧ (gptHeader 3 256).field 80 4 = 3 ∧
    (gptHeader 3 256).field 84 4 = 256
  decide +kernel

theorem holds_gptDisk [Digests] :
    (GptHeader.decode (gptHeader 3 256)).Holds (gptDisk 3 256 gptArray) gptRecords := by
  obtain ⟨place, count, size⟩ := decode_gptHeader
  constructor
  case wide =>
    rw [size]
    decide
  case divides =>
    rw [size, Nat.dvd_iff_mod_eq_zero]
    decide +kernel
  case few => decide
  case count => exact count
  case fits =>
    rw [size]
    exact fits_gptRecords
  case readable =>
    have answered : ∀ index < 2, (Source.readList (sector [] ++ gptHeader 3 256 ++ gptArray)
        512 (2 + index) 512).toOption.any (fun _ => True) = true := by decide +kernel
    intro index inside
    have low : index < 2 := by
      rw [size] at inside
      change index * 512 < 3 * 256 at inside
      omega
    obtain ⟨data, found, -⟩ := exists_ok (answered index low)
    rw [place, gptDisk, Source.read_ofImage]
    exact ⟨data, found⟩
  case written =>
    refine ⟨_, rfl, ?_⟩
    rw [place, size, List.toList_toArray]
    decide +kernel

end Small

namespace Detection

/-- Two entries and an unused record come back without the latter, and records of 100 bytes are
refused even by a disk that is closed. -/
theorem partitions_of_gptDisk :
    (∃ detection, ofSource (Small.gptDisk 3 256 Small.gptArray) = .ok detection ∧
      detection.partitions (Small.gptDisk 3 256 Small.gptArray) =
        .ok ([.gpt (Small.gptEntry "💾 Daten" 40), .gpt (Small.gptEntry "" 50)],
          if Digests.checksum (Small.gptRecords.flatMap GptRecord.bytes) = 0 then []
          else [.arrayChecksum 0 (Digests.checksum (Small.gptRecords.flatMap GptRecord.bytes))])) ∧
    ∃ detection, ofSource (Small.gptDisk 3 100 []) = .ok detection ∧
      ∃ text, detection.partitions (Small.gptDisk 3 100 []).close =
        .error (.badPartitionTable text) := by
  have second : (Small.gptDisk 3 256 Small.gptArray).read 1 512 = .ok (Small.gptHeader 3 256) := by
    rw [Small.gptDisk, Source.read_ofImage]
    decide +kernel
  have second' : (Small.gptDisk 3 100 []).read 1 512 = .ok (Small.gptHeader 3 100) := by
    rw [Small.gptDisk, Source.read_ofImage]
    decide +kernel
  constructor
  · obtain ⟨detection, detected, listed, -⟩ :=
      partitions_of_written (by decide) second (by decide +kernel)
    refine ⟨detection, detected, ?_⟩
    rw [listed _ Small.holds_gptDisk]
    have stored : (GptHeader.decode (Small.gptHeader 3 256)).arrayCrc = 0 := by decide +kernel
    rw [stored]
    rfl
  · obtain ⟨detection, detected, -, refused⟩ :=
      partitions_of_written (by decide) second' (by decide +kernel)
    exact ⟨detection, detected, refused (by decide +kernel) _ rfl⟩

end Detection

end Undelete
