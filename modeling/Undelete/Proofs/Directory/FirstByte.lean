import Undelete.Directory.Slot

/-!
The first byte of a short name from its checksum. The checksum turns its register around and adds
a byte, both of which can be undone, so that exactly one first byte gives a checksum. It is told
when it is printable or hinted at, and never another one in its place.
-/

namespace Undelete

/-- The register of a checksum after one more byte. -/
def checksumStep (sum byte : UInt8) : UInt8 := (sum <<< 7) + (sum >>> 1) + byte

theorem nameChecksum_eq (name : Bytes) : nameChecksum name = name.foldl checksumStep 0 := rfl

theorem rotate_inj {one other : UInt8}
    (same : (one <<< 7) + (one >>> 1) = (other <<< 7) + (other >>> 1)) : one = other := by
  have undo : ∀ value < 256, (((UInt8.ofNat value <<< 7) + (UInt8.ofNat value >>> 1)) <<< 1) +
      (((UInt8.ofNat value <<< 7) + (UInt8.ofNat value >>> 1)) >>> 7) = UInt8.ofNat value := by
    decide +kernel
  have first := undo one.toNat one.toNat_lt
  have second := undo other.toNat other.toNat_lt
  rw [UInt8.ofNat_toNat] at first second
  rw [← first, ← second, same]

theorem checksumStep_inj {one other byte : UInt8}
    (same : checksumStep one byte = checksumStep other byte) : one = other :=
  rotate_inj ((UInt8.add_left_inj byte).mp same)

theorem foldl_checksumStep_inj (name : Bytes) {one other : UInt8}
    (same : name.foldl checksumStep one = name.foldl checksumStep other) : one = other := by
  induction name generalizing one other with
  | nil => exact same
  | cons byte rest ih => exact checksumStep_inj (ih same)

theorem nameChecksum_cons (first : UInt8) (rest : Bytes) :
    nameChecksum (first :: rest) = rest.foldl checksumStep first := by
  have start : checksumStep 0 first = first := UInt8.zero_add first
  rw [nameChecksum_eq, List.foldl_cons, start]

/-- Names that differ in their first byte only have different checksums. -/
theorem nameChecksum_cons_inj {one other : UInt8} {rest : Bytes} :
    nameChecksum (one :: rest) = nameChecksum (other :: rest) ↔ one = other := by
  rw [nameChecksum_cons, nameChecksum_cons]
  constructor
  · exact foldl_checksumStep_inj rest
  · rintro rfl
    rfl

/-- Every register is the rotation of one. -/
theorem exists_rotate (target : UInt8) : ∃ sum : UInt8, (sum <<< 7) + (sum >>> 1) = target := by
  have undo : ∀ value < 256,
      (((UInt8.ofNat value <<< 1) + (UInt8.ofNat value >>> 7)) <<< 7) +
        (((UInt8.ofNat value <<< 1) + (UInt8.ofNat value >>> 7)) >>> 1) = UInt8.ofNat value := by
    decide +kernel
  have undone := undo target.toNat target.toNat_lt
  rw [UInt8.ofNat_toNat] at undone
  exact ⟨_, undone⟩

theorem exists_checksumStep (byte target : UInt8) : ∃ sum, checksumStep sum byte = target := by
  obtain ⟨sum, rotated⟩ := exists_rotate (target - byte)
  refine ⟨sum, ?_⟩
  rw [checksumStep, rotated, UInt8.sub_add_cancel]

theorem exists_foldl_checksumStep (name : Bytes) (target : UInt8) :
    ∃ sum, name.foldl checksumStep sum = target := by
  induction name with
  | nil => exact ⟨target, rfl⟩
  | cons byte rest ih =>
    obtain ⟨mid, reached⟩ := ih
    obtain ⟨sum, rfl⟩ := exists_checksumStep byte mid
    exact ⟨sum, reached⟩

/-- Whatever follows, one first byte gives a checksum. -/
theorem exists_first (rest : Bytes) (checksum : UInt8) :
    ∃ first, ∀ other, nameChecksum (other :: rest) = checksum ↔ other = first := by
  obtain ⟨first, reached⟩ := exists_foldl_checksumStep rest checksum
  refine ⟨first, fun other => ?_⟩
  rw [← reached, ← nameChecksum_cons first]
  exact nameChecksum_cons_inj

theorem find?_of_unique {test : UInt8 → Bool} {items : List UInt8} {item : UInt8}
    (only : ∀ other, test other = true ↔ other = item) :
    items.find? test = if item ∈ items then some item else none := by
  induction items with
  | nil => rfl
  | cons head rest ih =>
    rw [List.find?_cons]
    split
    next hit => rw [(only head).mp hit, if_pos List.mem_cons_self]
    next miss =>
      have other : item ≠ head := by
        rintro rfl
        rw [(only item).mpr rfl] at miss
        cases miss
      rw [ih]
      simp only [List.mem_cons, other, false_or]

theorem mem_printable {first : UInt8} :
    first ∈ (List.range' 0x21 94).map UInt8.ofNat ↔ 0x21 ≤ first ∧ first ≤ 0x7E := by
  rw [UInt8.le_iff_toNat_le, UInt8.le_iff_toNat_le]
  change _ ↔ 0x21 ≤ first.toNat ∧ first.toNat ≤ 0x7E
  constructor
  · intro member
    obtain ⟨code, inside, rfl⟩ := List.mem_map.mp member
    rw [List.mem_range'_1] at inside
    rw [UInt8.toNat_ofNat']
    omega
  · intro bounds
    refine List.mem_map.mpr ⟨first.toNat, List.mem_range'_1.mpr ?_, UInt8.ofNat_toNat⟩
    omega

/-- A printable first byte is told by the checksum, whatever the hint and whatever stands in its
place now. -/
theorem recoverInitial_eq {first lost : UInt8} (low : 0x21 ≤ first) (high : first ≤ 0x7E)
    (rest extension : Bytes) (hint : Option Char) :
    recoverInitial (lost :: rest) extension (nameChecksum (first :: rest ++ extension)) hint =
      some first := by
  refine (find?_of_unique fun other => ?_).trans
    (if_pos (List.mem_append_right _ (mem_printable.mpr ⟨low, high⟩)))
  rw [decide_eq_true_iff]
  exact nameChecksum_cons_inj

/-- Whether a byte is the hint in upper case. -/
def IsHinted (hint : Option Char) (byte : UInt8) : Prop :=
  ∃ c ∈ hint, c.toNat < 128 ∧ c.toUpper.toNat = byte.toNat

instance (hint : Option Char) (byte : UInt8) : Decidable (IsHinted hint byte) :=
  inferInstanceAs (Decidable (∃ c ∈ hint, _))

theorem toNat_toUpper_lt {c : Char} (ascii : c.toNat < 128) : c.toUpper.toNat < 128 := by
  have all : ∀ code < 128, (Char.ofNat code).toUpper.toNat < 128 := by decide
  have here := all c.toNat ascii
  rwa [Char.ofNat_toNat] at here

theorem mem_hinted {hint : Option Char} {byte : UInt8} :
    byte ∈ ((hint.filter (·.toNat < 128)).map fun c => UInt8.ofNat c.toUpper.toNat).toList ↔
      IsHinted hint byte := by
  simp only [Option.mem_toList, Option.mem_def, Option.map_eq_some_iff, Option.filter_eq_some_iff,
    decide_eq_true_iff, IsHinted, and_assoc]
  refine exists_congr fun c => and_congr_right fun _ => and_congr_right fun ascii => ?_
  have small := toNat_toUpper_lt ascii
  rw [← UInt8.toNat_inj, UInt8.toNat_ofNat', Nat.mod_eq_of_lt (by omega)]

/-- A checksum goes with exactly one first byte. That byte is told if it is printable or hinted at,
and otherwise none is, whatever stands in its place now. -/
theorem recoverInitial_eq_ite (rest extension : Bytes) (checksum : UInt8) :
    ∃ first, (∀ other, nameChecksum (other :: rest ++ extension) = checksum ↔ other = first) ∧
      ∀ (lost : UInt8) (hint : Option Char),
        recoverInitial (lost :: rest) extension checksum hint =
          if (0x21 ≤ first ∧ first ≤ 0x7E) ∨ IsHinted hint first then some first else none := by
  obtain ⟨first, only⟩ := exists_first (rest ++ extension) checksum
  refine ⟨first, only, fun lost hint => ?_⟩
  refine (find?_of_unique fun other => decide_eq_true_iff.trans (only other)).trans ?_
  simp only [List.mem_append, mem_hinted, mem_printable, or_comm]

end Undelete
