import Undelete.Partition.Gpt
import Undelete.Proofs.Text.Utf16

/-!
The records of an entry array as they are written. An entry whose numbers and name fit their
fields is read back from its bytes, whatever the record holds behind it.
-/

namespace Undelete

namespace Guid

def storedSize : Nat := 16

theorem length_toDisk (guid : Guid) : guid.toDisk.length = storedSize := by
  simp [toDisk, Bytes.length_slice, Bytes.length_ofNat, storedSize]

/-- Three groups change their order and the fourth is turned around. -/
theorem reorder_append {first second third last : Bytes} (four : first.length = 4)
    (two : second.length = 2) (pair : third.length = 2) (eight : last.length = 8) :
    reorder (first ++ second ++ third ++ last) = last.reverse ++ third ++ second ++ first := by
  simp [reorder, Bytes.slice, List.drop_append, List.take_of_length_le, List.drop_eq_nil_of_le,
    four, two, pair, eight]

theorem reorder_toDisk (guid : Guid) : reorder guid.toDisk = Bytes.ofNat 16 guid.value.toNat := by
  have long : (Bytes.ofNat 16 guid.value.toNat).length = 16 := Bytes.length_ofNat _ _
  rw [toDisk]
  generalize Bytes.ofNat 16 guid.value.toNat = data at long
  calc reorder (data.slice 12 4 ++ data.slice 10 2 ++ data.slice 8 2 ++ (data.slice 0 8).reverse)
      = data.slice 0 8 ++ data.slice 8 2 ++ data.slice 10 2 ++ data.slice 12 4 := by
        rw [reorder_append, List.reverse_reverse] <;> simp [Bytes.length_slice, long]
    _ = data.slice 0 16 := by simp only [← Bytes.slice_add data 0]
    _ = data := Bytes.slice_of_length long

/-- An identifier is read back as it was written. -/
theorem ofDisk_toDisk (guid : Guid) : ofDisk guid.toDisk = guid := by
  have fits : guid.value.toNat < Bytes.limit 16 := guid.value.isLt
  rw [ofDisk, reorder_toDisk, Bytes.littleEndian_ofNat_of_lt fits, BitVec.ofNat_toNat,
    BitVec.setWidth_eq]

theorem isNil_ofDisk_zeros : (ofDisk (List.replicate storedSize 0)).isNil = true := by decide

end Guid

namespace GptEntry

/-- Every number fits its field, and the name fits 36 units and can be told from what stands
behind it and from text in another encoding. -/
structure Fits (entry : GptEntry) : Prop where
  start : entry.startLba < Bytes.limit 8
  final : entry.endLba < Bytes.limit 8
  attributes : entry.attributes < Bytes.limit 8
  short : (Text.Utf16.encode entry.name.toList).length ≤ 36
  terminated : '\x00' ∉ entry.name.toList
  unmarked : ¬ Text.Utf16.IsMarked (Text.Utf16.bytes entry.name.toList)

variable {entry : GptEntry}

theorem length_paddedName (fits : entry.Fits) : (paddedName entry.name).length = 36 := by
  have short := fits.short
  simp only [paddedName, List.length_append, List.length_replicate]
  omega

theorem decodeTerminated_paddedName (fits : entry.Fits) :
    Text.Utf16.decodeTerminated ((paddedName entry.name).flatMap (Bytes.ofNat 2)) =
      entry.name.toList := by
  refine Text.Utf16.decodeTerminated_encode fits.terminated fits.unmarked ?_ ?_
  · intro unit member
    rw [List.eq_of_mem_replicate member]
    decide
  · cases 36 - (Text.Utf16.encode entry.name.toList).length with
    | zero => rfl
    | succ more => rfl

/-- An entry is read back from its bytes, whatever follows them. -/
theorem decode_encode (fits : entry.Fits) (rest : Bytes) :
    decode (entry.encode ++ rest) = entry := by
  have wide : ((paddedName entry.name).flatMap (Bytes.ofNat 2)).length = 72 := by
    rw [Bytes.length_flatMap_ofNat, length_paddedName fits]
  simp (disch := simp only [Guid.length_toDisk, Guid.storedSize, Bytes.length_ofNat, wide,
      Nat.reduceSub, Nat.reduceLeDiff]) only
    [decode, encode, Bytes.field, List.append_assoc, Bytes.slice_append_right,
    Bytes.slice_append_of_length, Guid.length_toDisk, Guid.storedSize, Bytes.length_ofNat,
    Nat.reduceSub, Nat.sub_self, Guid.ofDisk_toDisk, Bytes.littleEndian_ofNat_of_lt fits.start,
    Bytes.littleEndian_ofNat_of_lt fits.final, Bytes.littleEndian_ofNat_of_lt fits.attributes,
    decodeTerminated_paddedName fits, String.ofList_toList]

end GptEntry

/-- One place of the array: unused, with anything behind a nil type, or an entry with whatever
the record is longer by. -/
inductive GptRecord where
  | unused (rest : Bytes)
  | used (entry : GptEntry) (rest : Bytes)

namespace GptRecord

def bytes : GptRecord → Bytes
  | unused rest => List.replicate Guid.storedSize 0 ++ rest
  | used entry rest => entry.encode ++ rest

def entry? : GptRecord → Option GptEntry
  | unused _ => none
  | used entry _ => some entry

structure Fits (size : Nat) (record : GptRecord) : Prop where
  width : record.bytes.length = size
  entry : ∀ entry, record.entry? = some entry → entry.Fits ∧ entry.isEmpty = false

variable {size : Nat} {record : GptRecord}

/-- What a record is read as counts exactly when the record holds an entry, and is that entry. -/
theorem filter_decode (fits : record.Fits size) :
    (Option.some (GptEntry.decode record.bytes)).filter (!·.isEmpty) = record.entry? := by
  cases record with
  | unused rest =>
    have isNil : (GptEntry.decode (unused rest).bytes).isEmpty = true := by
      have front : Bytes.slice (List.replicate Guid.storedSize 0 ++ rest) 0 16 =
          List.replicate Guid.storedSize 0 := Bytes.slice_append_of_length rfl
      change (Guid.ofDisk ((unused rest).bytes.slice 0 16)).isNil = true
      rw [bytes, front]
      exact Guid.isNil_ofDisk_zeros
    rw [Option.filter_some, isNil]
    rfl
  | used entry rest =>
    obtain ⟨inner, present⟩ := fits.entry entry rfl
    rw [bytes, GptEntry.decode_encode inner, Option.filter_some, present]
    rfl

theorem filter_map_decode {records : List GptRecord} (fits : ∀ record ∈ records, record.Fits size) :
    ((records.map bytes).map GptEntry.decode).filter (!·.isEmpty) = records.filterMap entry? := by
  induction records with
  | nil => rfl
  | cons record records ih =>
    have later := ih fun other member => fits other (List.mem_cons_of_mem _ member)
    have here := filter_decode (fits record List.mem_cons_self)
    rw [List.filterMap_cons, ← here, ← later, List.map_cons, List.map_cons, List.filter_cons,
      Option.filter_some]
    cases GptEntry.isEmpty (GptEntry.decode record.bytes) with
    | true => rfl
    | false => rfl

end GptRecord

end Undelete
