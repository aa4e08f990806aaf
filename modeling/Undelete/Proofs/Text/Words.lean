import Mathlib
import Undelete.Text.Blank

/-!
Words in a text, whatever stands around them and in whatever case they are written. Only ASCII
letters have a case here, so that blanks and digits stay what they are when it changes.
-/

namespace Undelete.Text

section

variable {c : Char}

theorem isLower_iff : c.isLower = true ↔ 97 ≤ c.toNat ∧ c.toNat ≤ 122 := by
  simp [Char.isLower, UInt32.le_iff_toNat_le]

/-- A small letter is 32 places behind its capital, and nothing else changes. -/
theorem toUpper_eq_or (c : Char) :
    c.toUpper = c ∨ 97 ≤ c.toNat ∧ c.toNat ≤ 122 ∧ c.toUpper.toNat = c.toNat - 32 := by
  by_cases lower : c.isLower = true
  · right
    obtain ⟨low, high⟩ := isLower_iff.mp lower
    have valid : (c.toNat - 32).isValidChar := .inl (by omega)
    refine ⟨low, high, ?_⟩
    rw [Char.toUpper_eq_of_isLower lower, Char.toNat_ofNat, if_pos valid]
  · exact .inl (Char.toUpper_eq_of_not_isLower lower)

theorem isDigit_iff : c.isDigit = true ↔ 48 ≤ c.toNat ∧ c.toNat ≤ 57 := Char.isDigit_iff_toNat

theorem isAlpha_iff : c.isAlpha = true ↔
    65 ≤ c.toNat ∧ c.toNat ≤ 90 ∨ 97 ≤ c.toNat ∧ c.toNat ≤ 122 := by
  simp [Char.isAlpha, Char.isUpper, Char.isLower, UInt32.le_iff_toNat_le]

theorem isDigit_toUpper (c : Char) : c.toUpper.isDigit = c.isDigit := by
  rcases toUpper_eq_or c with same | ⟨low, high, value⟩
  · rw [same]
  · rw [Bool.eq_iff_iff, isDigit_iff, isDigit_iff]
    omega

theorem isBlank_toUpper (c : Char) : isBlank c.toUpper = isBlank c := by
  rcases toUpper_eq_or c with same | ⟨low, high, value⟩
  · rw [same]
  · simp only [isBlank, blankRanges, List.any_cons, List.any_nil, value]
    rw [Bool.eq_iff_iff]
    simp
    omega

/-- A character that is not a letter is the upper case of nothing else. -/
theorem toUpper_eq_iff {other : Char} (symbol : other.isAlpha = false) :
    c.toUpper = other ↔ c = other := by
  rcases toUpper_eq_or c with same | ⟨low, high, value⟩
  · rw [same]
  · have letter := isAlpha_iff.mpr (.inr ⟨low, high⟩)
    constructor
    · rintro rfl
      rw [Char.isAlpha_toUpper_eq_isAlpha, letter] at symbol
      cases symbol
    · rintro rfl
      rw [letter] at symbol
      cases symbol

theorem isDigit_of_isAlpha (letter : c.isAlpha = true) : c.isDigit = false := by
  rw [isAlpha_iff] at letter
  rw [← Bool.not_eq_true, isDigit_iff]
  omega

/-- A digit has no case. -/
theorem toUpper_of_isDigit (digit : c.isDigit = true) : c.toUpper = c := by
  rcases toUpper_eq_or c with same | ⟨low, high, -⟩
  · exact same
  · rw [isDigit_iff] at digit
    omega

theorem map_toUpper_of_digits {text : List Char} (digits : ∀ c ∈ text, c.isDigit = true) :
    text.map Char.toUpper = text :=
  (List.map_congr_left fun c member => toUpper_of_isDigit (digits c member)).trans
    (List.map_id text)

end

section

variable {p : Char → Bool} {text front back : List Char}

theorem dropEndWhile_append_of_forall (text : List Char) (all : ∀ c ∈ back, p c = true) :
    dropEndWhile p (text ++ back) = dropEndWhile p text := by
  have behind : ∀ c ∈ back.reverse, p c = true := fun c member => all c (List.mem_reverse.mp member)
  rw [dropEndWhile, List.reverse_append, List.dropWhile_append_of_pos behind, dropEndWhile]

/-- What stands around a text and is cut off does not matter. -/
theorem strip_append (text : List Char) (before : ∀ c ∈ front, p c = true)
    (behind : ∀ c ∈ back, p c = true) : strip p (front ++ text ++ back) = strip p text := by
  rw [strip, List.append_assoc, List.dropWhile_append_of_pos before, List.dropWhile_append, strip]
  split
  next gone =>
    rw [List.isEmpty_iff.mp gone, List.dropWhile_eq_nil_iff.mpr behind]
  next left => rw [dropEndWhile_append_of_forall _ behind]

theorem strip_map {f : Char → Char} (same : ∀ c, p (f c) = p c) (text : List Char) :
    strip p (text.map f) = (strip p text).map f := by
  have kept : p ∘ f = p := funext same
  rw [strip, dropEndWhile, List.dropWhile_map, kept, ← List.map_reverse, List.dropWhile_map, kept,
    ← List.map_reverse]
  rfl

theorem takeEndWhile_map {f : Char → Char} (same : ∀ c, p (f c) = p c) (text : List Char) :
    takeEndWhile p (text.map f) = (takeEndWhile p text).map f := by
  have kept : p ∘ f = p := funext same
  rw [takeEndWhile, ← List.map_reverse, List.takeWhile_map, kept, ← List.map_reverse]
  rfl

theorem of_mem_takeEndWhile {c : Char} (member : c ∈ takeEndWhile p text) : p c = true :=
  List.mem_rtakeWhile_imp member

theorem takeEndWhile_eq_nil_iff :
    takeEndWhile p text = [] ↔ ∀ c ∈ text.getLast?, p c = false := by
  refine List.rtakeWhile_eq_nil_iff.trans ⟨?_, ?_⟩
  · intro stops c last
    obtain ⟨filled, rfl⟩ := List.mem_getLast?_eq_getLast last
    simpa using stops filled
  · intro stops filled
    simpa using stops _ (List.getLast?_eq_some_getLast filled)

/-- An ending is the longest one if what stands before it ends differently. -/
theorem takeEndWhile_append (stops : ∀ c ∈ front.getLast?, p c = false)
    (all : ∀ c ∈ back, p c = true) : takeEndWhile p (front ++ back) = back := by
  have behind : ∀ c ∈ back.reverse, p c = true := fun c member => all c (List.mem_reverse.mp member)
  have before := List.reverse_eq_nil_iff.mp (takeEndWhile_eq_nil_iff.mpr stops)
  rw [takeEndWhile, List.reverse_append, List.takeWhile_append_of_pos behind, before,
    List.append_nil, List.reverse_reverse]

theorem exists_takeEndWhile (p : Char → Bool) (text : List Char) :
    ∃ front, text = front ++ takeEndWhile p text ∧ ∀ c ∈ front.getLast?, p c = false := by
  refine ⟨dropEndWhile p text, List.rdropWhile_append_rtakeWhile.symm, ?_⟩
  intro c last
  obtain ⟨filled, rfl⟩ := List.mem_getLast?_eq_getLast last
  exact Bool.eq_false_iff.mpr (List.rdropWhile_last_not p text filled)

theorem occursIn_iff {word : List Char} : occursIn word text = true ↔ word <:+: text := by
  induction text with
  | nil => simp [occursIn]
  | cons c rest ih =>
    rw [occursIn, Bool.or_eq_true, List.isPrefixOf_iff_prefix, ih, List.infix_cons_iff]

end

end Undelete.Text
