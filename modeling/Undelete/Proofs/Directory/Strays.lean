import Undelete.Proofs.Directory.LongNames
import Undelete.Proofs.Text.Following

/-!
The fragments of a name with those of something else in front of them, and without the first of
their own. The slots of a name begin with its end, so that strays stand for more text behind it.
-/

namespace Undelete.NameFragment

open Text

variable {name : List Char} {checksum : UInt8}

/-- Whether the text in fragments is nothing but padding as far as it is read. -/
def Blank (fragments : List NameFragment) : Prop :=
  ∀ unit ∈ (Bytes.units (fragments.reverse.flatMap NameFragment.text)).takeWhile (· ≠ 0),
    unit = 0xFFFF

instance : DecidablePred Blank := fun _ => inferInstanceAs (Decidable (∀ _ ∈ _, _))

theorem assemble_eq_some_iff (filled : name ≠ []) (fragments : List NameFragment) :
    assemble fragments = some (String.ofList name) ↔
      dropEndWhile (· = '\uFFFF')
        (Utf16.decodeTerminated (fragments.reverse.flatMap NameFragment.text)) = name := by
  rw [assemble]
  split
  next none =>
    exact ⟨fun some => absurd some.symm (Option.some_ne_none _),
      fun same => absurd (same.symm.trans none) filled⟩
  next => rw [Option.some_inj, String.ofList_inj]

theorem length_encode_pos (filled : name ≠ []) : 0 < (Utf16.encode name).length := by
  cases name with
  | nil => exact absurd rfl filled
  | cons c rest =>
    rw [Utf16.encode_cons, List.length_append, Utf16.encodeChar]
    split <;> exact Nat.lt_of_lt_of_le (Nat.succ_pos _) (Nat.le_add_right _ _)

/-- Nothing stands behind the units of a name that fill its fragments. -/
theorem paddedName_of_dvd (full : capacity ∣ (Utf16.encode name).length) :
    paddedName name = Utf16.encode name := by
  obtain ⟨count, length⟩ := full
  have most : needed name ≤ count := by
    rw [needed, Number.ceilDiv_le_iff (by decide), length, Nat.mul_comm]
  have room := length_le_needed name
  have even := Nat.mul_le_mul_left capacity most
  rw [paddedName_eq, Nat.sub_eq_zero_of_le (by omega), List.take_zero, List.append_nil]

/-- A zero stands behind the units of a name that do not fill its fragments. -/
theorem paddedName_of_not_dvd (partly : ¬ capacity ∣ (Utf16.encode name).length) :
    ∃ more, paddedName name = Utf16.encode name ++ 0 :: more := by
  have room := length_le_needed name
  have other : capacity * needed name ≠ (Utf16.encode name).length :=
    fun same => partly ⟨needed name, same.symm⟩
  obtain ⟨more, some⟩ := Nat.exists_eq_succ_of_ne_zero
    (n := capacity * needed name - (Utf16.encode name).length) (by omega)
  rw [paddedName_eq, some, List.take_succ_cons]
  exact ⟨_, rfl⟩

/-- Strays in front of a name leave it as it is if their text is not reached or is blank. -/
theorem assemble_append_split_iff (storable : Storable name) (strays : List NameFragment) :
    assemble (strays ++ split checksum name) = some (String.ofList name) ↔
      ¬ capacity ∣ (Utf16.encode name).length ∨ Blank strays := by
  rw [assemble_eq_some_iff storable.filled, List.reverse_append, List.flatMap_append,
    flatMap_text_split]
  have kept : ∀ c ∈ name, decide (c = '\uFFFF') = false := by
    intro c member
    refine decide_eq_false ?_
    rintro rfl
    exact storable.unpadded member
  by_cases full : capacity ∣ (Utf16.encode name).length
  · have long : 3 ≤ (Utf16.bytes name).length := by
      have least := Nat.le_of_dvd (length_encode_pos storable.filled) full
      have thirteen : capacity = 13 := rfl
      rw [Utf16.length_bytes]
      omega
    rw [paddedName_of_dvd full, ← Utf16.bytes,
      Utf16.decodeTerminated_bytes_append storable.terminated,
      Utf16.decode_bytes_append storable.unmarked long, dropEndWhile_append_eq_iff kept,
      Bytes.units_take, ← List.prefix_iff_eq_take.mp (List.takeWhile_prefix _)]
    simp only [decide_eq_true_eq, Utf16.forall_decodeUnits_iff, full, not_true_eq_false, false_or]
    rfl
  · obtain ⟨more, padded⟩ := paddedName_of_not_dvd full
    have ended (rest : Bytes) :
        (Bytes.units ((0 :: more).flatMap (Bytes.ofNat 2) ++ rest)).takeWhile (· ≠ 0) = [] := rfl
    rw [padded, List.flatMap_append, ← Utf16.bytes, List.append_assoc,
      Utf16.decodeTerminated_bytes_append storable.terminated, ended, List.length_nil, Nat.mul_zero,
      List.take_zero, List.append_nil, Utf16.decode_bytes storable.unmarked,
      dropEndWhile_of_notMem storable.unpadded]
    exact iff_of_true rfl (.inl full)

theorem flatMap_text_take {fragments : List NameFragment}
    (wide : ∀ fragment ∈ fragments, fragment.text.length = 2 * capacity) (count : Nat) :
    (fragments.take count).flatMap NameFragment.text =
      (fragments.flatMap NameFragment.text).take (2 * (capacity * count)) := by
  induction fragments generalizing count with
  | nil => simp
  | cons fragment rest ih =>
    cases count with
    | zero => rfl
    | succ count =>
      have here := wide fragment List.mem_cons_self
      have size : 2 * (capacity * (count + 1)) =
          fragment.text.length + 2 * (capacity * count) := by
        rw [here, Nat.mul_succ, Nat.mul_add, Nat.add_comm]
      rw [List.take_succ_cons, List.flatMap_cons, List.flatMap_cons, size,
        List.take_length_add_append,
        ih fun other member => wide other (List.mem_cons_of_mem _ member)]

/-- A name does not come back when fragments are missing in front. -/
theorem assemble_drop_split_ne (storable : Storable name) {count : Nat} (torn : 0 < count) :
    assemble ((split checksum name).drop count) ≠ some (String.ofList name) := by
  have wide : ∀ fragment ∈ (split checksum name).reverse, fragment.text.length = 2 * capacity :=
    fun fragment member =>
      (of_mem_split (needed_le storable.short) (List.mem_reverse.mp member)).2.1
  have fewer : capacity * (needed name - count) < (Utf16.encode name).length := by
    have some : 1 ≤ needed name :=
      Number.ceilDiv_pos (length_encode_pos storable.filled) (by decide)
    have less : ¬ needed name ≤ needed name - count := by omega
    rw [needed, Number.ceilDiv_le_iff (by decide), ← needed, Nat.mul_comm] at less
    omega
  have inside : 2 * (capacity * (needed name - count)) ≤ (Utf16.bytes name).length := by
    rw [Utf16.length_bytes]
    omega
  rw [ne_eq, assemble_eq_some_iff storable.filled, List.reverse_drop, length_split,
    flatMap_text_take wide, flatMap_text_split, paddedName_eq, List.flatMap_append, ← Utf16.bytes,
    List.take_append_of_le_length inside]
  intro same
  have whole := dropEndWhile_prefix (· = '\uFFFF')
    (Utf16.decodeTerminated ((Utf16.bytes name).take (2 * (capacity * (needed name - count)))))
  rw [same] at whole
  exact Utf16.not_prefix_decodeTerminated storable.unmarked fewer whole

end Undelete.NameFragment
