import Mathlib.Data.List.Basic
import Mathlib.Data.List.TakeWhile
import Undelete.Directory.Slot
import Undelete.Proofs.Text.Utf16
import Undelete.Proofs.Volume.Layout

/-!
Slots as they are written. A short slot and a name fragment are read back from their bytes, a mark
of deletion changes nothing but the first byte, and the fragments of a name give the name again,
with or without that mark.
-/

namespace Undelete

/-- A short slot with its first byte lost. -/
def ShortSlot.erased (slot : ShortSlot) : ShortSlot :=
  { slot with name := deletedMark :: slot.name.drop 1 }

/-- A fragment with its place in the name lost. -/
def NameFragment.erased (fragment : NameFragment) : NameFragment :=
  { fragment with sequence := deletedMark }

namespace Slot

/-- A slot with the mark of a deleted one. -/
def erase (data : Bytes) : Bytes := deletedMark :: data.drop 1

theorem exists_cons_of_decode {data : Bytes} (used : decode data ≠ .unused) :
    ∃ first rest, data = first :: rest ∧ first ≠ endMark := by
  cases data with
  | nil => exact absurd rfl used
  | cons first rest =>
    refine ⟨first, rest, rfl, fun ends => used ?_⟩
    rw [decode, if_pos]
    exact ends

theorem decode_cons {first : UInt8} (used : first ≠ endMark) (rest : Bytes) :
    decode (first :: rest) =
      if Attributes.isLongName (Bytes.byteAt rest 10) then
        .fragment (NameFragment.decode (first :: rest))
      else .short (ShortSlot.decode (first :: rest)) := by
  rw [decode, if_neg (by exact used)]
  rfl

theorem decode_erase_fragment {data : Bytes} {fragment : NameFragment}
    (decoded : decode data = .fragment fragment) :
    decode (erase data) = .fragment fragment.erased := by
  have filled : decode data ≠ .unused := by simp [decoded]
  obtain ⟨first, rest, rfl, used⟩ := exists_cons_of_decode filled
  rw [decode_cons used] at decoded
  split at decoded
  next long =>
    cases decoded
    rw [erase, decode_cons (by decide), List.drop_succ_cons, List.drop_zero, if_pos long]
    rfl
  next => cases decoded

theorem decode_erase_short {data : Bytes} {slot : ShortSlot} (decoded : decode data = .short slot) :
    decode (erase data) = .short slot.erased := by
  have filled : decode data ≠ .unused := by simp [decoded]
  obtain ⟨first, rest, rfl, used⟩ := exists_cons_of_decode filled
  rw [decode_cons used] at decoded
  split at decoded
  next => cases decoded
  next short =>
    cases decoded
    rw [erase, decode_cons (by decide), List.drop_succ_cons, List.drop_zero, if_neg short]
    rfl

end Slot

namespace ShortSlot

/-- Every part has the width of its field. -/
structure Fits (slot : ShortSlot) : Prop where
  name : slot.name.length = 8
  extension : slot.extension.length = 3
  createTime : slot.createTime < Bytes.limit 2
  createDate : slot.createDate < Bytes.limit 2
  accessDate : slot.accessDate < Bytes.limit 2
  clusterHigh : slot.clusterHigh < Bytes.limit 2
  writeTime : slot.writeTime < Bytes.limit 2
  writeDate : slot.writeDate < Bytes.limit 2
  clusterLow : slot.clusterLow < Bytes.limit 2
  fileSize : slot.fileSize < Bytes.limit 4

variable {slot : ShortSlot}

theorem length_encode (fits : slot.Fits) : slot.encode.length = slotSize := by
  simp only [encode, List.length_append, fits.name, fits.extension, Bytes.length_ofNat,
    List.length_cons, List.length_nil, slotSize]

/-- A short slot is read back from its bytes. -/
theorem decode_encode (fits : slot.Fits) : decode slot.encode = slot := by
  simp (disch := simp only [fits.name, fits.extension, Bytes.length_ofNat, List.length_cons,
      List.length_nil, Nat.reduceSub, Nat.reduceAdd, Nat.reduceLeDiff]) only
    [decode, encode, Bytes.field, List.append_assoc, Bytes.slice_append_right,
    Bytes.slice_append_of_length, Bytes.byteAt_append_right, Bytes.slice_of_length,
    fits.name, fits.extension, Bytes.length_ofNat, List.length_cons, List.length_nil,
    Nat.reduceSub, Nat.reduceAdd, Nat.sub_self, Bytes.littleEndian_ofNat_of_lt fits.createTime,
    Bytes.littleEndian_ofNat_of_lt fits.createDate, Bytes.littleEndian_ofNat_of_lt fits.accessDate,
    Bytes.littleEndian_ofNat_of_lt fits.clusterHigh, Bytes.littleEndian_ofNat_of_lt fits.writeTime,
    Bytes.littleEndian_ofNat_of_lt fits.writeDate, Bytes.littleEndian_ofNat_of_lt fits.clusterLow,
    Bytes.littleEndian_ofNat_of_lt fits.fileSize]
  rfl

end ShortSlot

namespace NameFragment

variable {fragment : NameFragment}

theorem length_encode (full : fragment.text.length = 2 * capacity) :
    fragment.encode.length = slotSize := by
  simp [encode, Bytes.length_slice, full, capacity, slotSize]

/-- The text lies in three parts around the checksum and the mark of a fragment. -/
theorem decode_parts {sequence checksum : UInt8} {first second third : Bytes}
    (ten : first.length = 10) (twelve : second.length = 12) (four : third.length = 4) :
    decode (sequence :: first ++ [0x0F, 0x00, checksum] ++ second ++ [0x00, 0x00] ++ third) =
      ⟨sequence, checksum, first ++ second ++ third⟩ := by
  have behind : sequence :: first ++ [0x0F, 0x00, checksum] ++ second ++ [0x00, 0x00] ++ third =
      sequence :: (first ++ (0x0F :: 0x00 :: checksum :: (second ++ (0x00 :: 0x00 :: third)))) := by
    simp
  have check : Bytes.byteAt (first ++ (0x0F :: 0x00 :: checksum :: (second ++
      (0x00 :: 0x00 :: third)))) 12 = checksum := by
    rw [Bytes.byteAt_append_right (by omega), ten]
    rfl
  have front : Bytes.slice (first ++ (0x0F :: 0x00 :: checksum :: (second ++
      (0x00 :: 0x00 :: third)))) 0 10 = first := Bytes.slice_append_of_length ten
  have middle : Bytes.slice (first ++ (0x0F :: 0x00 :: checksum :: (second ++
      (0x00 :: 0x00 :: third)))) 13 12 = second := by
    rw [Bytes.slice_append_right (by omega), ten]
    exact Bytes.slice_append_of_length twelve
  have back : Bytes.slice (first ++ (0x0F :: 0x00 :: checksum :: (second ++
      (0x00 :: 0x00 :: third)))) 27 4 = third := by
    rw [Bytes.slice_append_right (by omega), ten]
    change Bytes.slice (second ++ (0x00 :: 0x00 :: third)) 14 4 = third
    rw [Bytes.slice_append_right (by omega), twelve]
    exact Bytes.slice_of_length four
  rw [behind]
  refine (NameFragment.mk.injEq ..).mpr ⟨rfl, check, ?_⟩
  exact congrArg₂ (· ++ ·) (congrArg₂ (· ++ ·) front middle) back

/-- A fragment is read back from its bytes. -/
theorem decode_encode (full : fragment.text.length = 2 * capacity) :
    decode fragment.encode = fragment := by
  have ten : (fragment.text.slice 0 10).length = 10 := by rw [Bytes.length_slice, full]; rfl
  have twelve : (fragment.text.slice 10 12).length = 12 := by rw [Bytes.length_slice, full]; rfl
  have four : (fragment.text.slice 22 4).length = 4 := by rw [Bytes.length_slice, full]; rfl
  have whole : fragment.text.slice 0 10 ++ fragment.text.slice 10 12 ++ fragment.text.slice 22 4 =
      fragment.text := by
    rw [← Bytes.slice_add _ 0, ← Bytes.slice_add _ 0, Bytes.slice_of_length (by exact full)]
  rw [encode, decode_parts ten twelve four, whole]

/-- The slots that a name takes. -/
def needed (name : List Char) : Nat := Number.ceilDiv (Text.Utf16.encode name).length capacity

theorem needed_le {name : List Char} (short : (Text.Utf16.encode name).length ≤ 255) :
    needed name ≤ 20 := by
  rw [needed, Number.ceilDiv_le_iff (by decide)]
  exact Nat.le_trans short (by decide)

theorem length_le_needed (name : List Char) :
    (Text.Utf16.encode name).length ≤ capacity * needed name := by
  rw [Nat.mul_comm]
  exact Number.le_ceilDiv_mul _ (by decide)

theorem paddedName_eq (name : List Char) :
    paddedName name = Text.Utf16.encode name ++
      (0 :: List.replicate capacity 0xFFFF).take
        (capacity * needed name - (Text.Utf16.encode name).length) := by
  rw [paddedName, List.take_append, List.take_of_length_le (by exact length_le_needed name)]
  rfl

theorem length_paddedName (name : List Char) :
    (paddedName name).length = capacity * needed name := by
  have room : capacity * needed name ≤ (Text.Utf16.encode name).length + capacity := by
    have tight := Nat.div_mul_le_self ((Text.Utf16.encode name).length + capacity - 1) capacity
    rw [needed, Number.ceilDiv, Nat.mul_comm]
    omega
  rw [paddedName, List.length_take, List.length_append, List.length_cons, List.length_replicate,
    ← needed]
  omega

/-- The bytes of a name cut into the texts of its fragments. -/
def texts (name : List Char) : List Bytes :=
  Bytes.chunks (2 * capacity) ((paddedName name).flatMap (Bytes.ofNat 2))

theorem length_bytes (name : List Char) :
    ((paddedName name).flatMap (Bytes.ofNat 2)).length = 2 * capacity * needed name := by
  rw [Bytes.length_flatMap_ofNat, length_paddedName, Nat.mul_assoc]

theorem texts_eq (name : List Char) :
    texts name =
      Bytes.pieces (2 * capacity) (needed name) ((paddedName name).flatMap (Bytes.ofNat 2)) := by
  rw [texts, Bytes.chunks, length_bytes, Nat.mul_div_cancel_left _ (by decide)]

theorem split_eq (checksum : UInt8) (name : List Char) :
    split checksum name = ((texts name).zipIdx.map fun (text, index) =>
      ⟨sequenceOf (needed name) index, checksum, text⟩).reverse := by
  have count : (texts name).length = needed name := by rw [texts_eq, Bytes.length_pieces]
  rw [← count]
  rfl

theorem length_split (checksum : UInt8) (name : List Char) :
    (split checksum name).length = needed name := by
  rw [split_eq, List.length_reverse, List.length_map, List.length_zipIdx, texts_eq,
    Bytes.length_pieces]

theorem sequenceOf_ne {count index : Nat} (few : index < 20) :
    sequenceOf count index ≠ endMark := by
  intro zero
  have value := congrArg UInt8.toNat zero
  rw [sequenceOf, UInt8.toNat_ofNat'] at value
  have none : endMark.toNat = 0 := rfl
  split at value <;> omega

theorem of_mem_split {checksum : UInt8} {name : List Char} (few : needed name ≤ 20)
    {fragment : NameFragment} (member : fragment ∈ split checksum name) :
    fragment.checksum = checksum ∧ fragment.text.length = 2 * capacity ∧
      fragment.sequence ≠ endMark := by
  rw [split_eq, List.mem_reverse] at member
  obtain ⟨⟨text, index⟩, known, rfl⟩ := List.mem_map.mp member
  rw [texts_eq] at known
  have cut := List.fst_mem_of_mem_zipIdx known
  have inside := List.snd_lt_of_mem_zipIdx known
  rw [Bytes.length_pieces] at inside
  exact ⟨rfl, Bytes.length_of_mem_pieces (length_bytes name) cut, sequenceOf_ne (by omega)⟩

theorem flatMap_text_split (checksum : UInt8) (name : List Char) :
    (split checksum name).reverse.flatMap NameFragment.text =
      (paddedName name).flatMap (Bytes.ofNat 2) := by
  rw [split_eq, List.reverse_reverse, List.flatMap_def, List.map_map]
  calc ((texts name).zipIdx.map Prod.fst).flatten
      = (texts name).flatten := by rw [List.zipIdx_map_fst]
    _ = _ := by rw [texts_eq, Bytes.flatten_pieces (length_bytes name)]

/-- A name that can be stored: not empty, and without the units that stand for its end. -/
structure Storable (name : List Char) : Prop where
  filled : name ≠ []
  short : (Text.Utf16.encode name).length ≤ 255
  terminated : '\x00' ∉ name
  unpadded : '\uFFFF' ∉ name
  unmarked : ¬ Text.Utf16.IsMarked (Text.Utf16.bytes name)

theorem dropEndWhile_of_notMem {c : Char} {text : List Char} (absent : c ∉ text) :
    Text.dropEndWhile (· = c) text = text := by
  have none : text.reverse.dropWhile (· = c) = text.reverse := by
    rw [List.dropWhile_eq_self_iff]
    intro filled same
    have member := List.getElem_mem (l := text.reverse) (n := 0) (by omega)
    rw [of_decide_eq_true same, List.mem_reverse] at member
    exact absent member
  rw [Text.dropEndWhile, none, List.reverse_reverse]

theorem decodeTerminated_paddedName {name : List Char} (terminated : '\x00' ∉ name) :
    Text.Utf16.decodeTerminated ((paddedName name).flatMap (Bytes.ofNat 2)) =
      Text.Utf16.decode (Text.Utf16.bytes name) := by
  rw [paddedName_eq]
  apply Text.Utf16.decodeTerminated_append terminated
  · intro unit member
    rcases List.mem_cons.mp (List.mem_of_mem_take member) with rfl | ones
    · decide
    · rw [List.eq_of_mem_replicate ones]
      decide
  · cases capacity * needed name - (Text.Utf16.encode name).length with
    | zero => rfl
    | succ more => rfl

/-- The fragments of a name give the name. -/
theorem assemble_split (checksum : UInt8) {name : List Char} (storable : Storable name) :
    assemble (split checksum name) = some (String.ofList name) := by
  rw [assemble, flatMap_text_split, decodeTerminated_paddedName storable.terminated,
    Text.Utf16.decode_bytes storable.unmarked, dropEndWhile_of_notMem storable.unpadded]
  exact if_neg storable.filled

/-- What is done to other parts of the fragments changes nothing about their name. -/
theorem assemble_map {change : NameFragment → NameFragment}
    (kept : ∀ fragment, (change fragment).text = fragment.text) (fragments : List NameFragment) :
    assemble (fragments.map change) = assemble fragments := by
  have same : (fragments.map change).reverse.flatMap NameFragment.text =
      fragments.reverse.flatMap NameFragment.text := by
    rw [← List.map_reverse, List.flatMap_map]
    exact List.flatMap_congr fun fragment _ => kept fragment
  rw [assemble, assemble, same]

end NameFragment

end Undelete
