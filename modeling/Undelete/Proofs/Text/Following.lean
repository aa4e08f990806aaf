import Mathlib.Data.List.TakeWhile
import Undelete.Proofs.Text.Marked
import Undelete.Text.Blank

/-!
Texts with other units behind them, or with the last of their own cut off. What follows a text that
does not end with a zero is read as more of it, and of fewer units the text does not come back.
-/

namespace Undelete.Text

/-- The end of a text is cut off down to its front exactly if all of it goes. -/
theorem dropEndWhile_append_eq_iff {p : Char → Bool} {front : List Char}
    (kept : ∀ c ∈ front, p c = false) (back : List Char) :
    dropEndWhile p (front ++ back) = front ↔ ∀ c ∈ back, p c = true := by
  have fixed : front.reverse.dropWhile p = front.reverse := by
    rw [List.dropWhile_eq_self_iff]
    intro filled same
    have member := List.getElem_mem (l := front.reverse) (n := 0) filled
    rw [kept _ (List.mem_reverse.mp member)] at same
    cases same
  rw [dropEndWhile, List.reverse_eq_iff, List.reverse_append, List.dropWhile_append, fixed]
  constructor
  · intro same
    split at same
    next all =>
      intro c member
      rw [List.isEmpty_iff, List.dropWhile_eq_nil_iff] at all
      exact all c (List.mem_reverse.mpr member)
    next some =>
      have longer := congrArg List.length same
      rw [List.length_append] at longer
      rw [List.isEmpty_iff, ← List.length_eq_zero_iff] at some
      omega
  · intro all
    have gone : back.reverse.dropWhile p = [] :=
      List.dropWhile_eq_nil_iff.mpr fun c member => all c (List.mem_reverse.mp member)
    rw [gone]
    rfl

namespace Utf16

theorem IsMarked.of_isPrefix {front data : Bytes} (marked : IsMarked front)
    (cut : front <+: data) : IsMarked data :=
  marked.imp (·.trans cut) (Or.imp (·.trans cut) (·.trans cut))

theorem IsMarked.of_append {front back : Bytes} (marked : IsMarked (front ++ back))
    (long : 3 ≤ front.length) : IsMarked front := by
  have cut {mark : Bytes} (here : mark <+: front ++ back) (short : mark.length ≤ 3) :
      mark <+: front :=
    List.prefix_of_prefix_length_le here (List.prefix_append _ _) (Nat.le_trans short long)
  exact marked.imp (cut · (by decide)) (Or.imp (cut · (by decide)) (cut · (by decide)))

theorem single_eq_iff {unit : Nat} : single unit = '\uFFFF' ↔ unit = 0xFFFF := by
  constructor
  · intro same
    unfold single at same
    split at same
    · exact absurd same (by decide)
    · rcases Utf8.toNat_ofNat_eq unit with value | null
      · rw [← value, same]
        rfl
      · rw [same] at null
        exact absurd null (by decide)
  · rintro rfl
    rfl

theorem join_ne {high low : Nat} : join high low ≠ '\uFFFF' := by
  intro same
  have value := Utf8.toNat_ofNat_eq (0x10000 + (high - 0xD800) * 0x400 + (low - 0xDC00))
  rw [← join, same] at value
  have last : '\uFFFF'.toNat = 0xFFFF := rfl
  omega

/-- Units are decoded to nothing but U+FFFF exactly if they are nothing but 0xFFFF. -/
theorem forall_decodeUnits_iff (units : List Nat) :
    (∀ c ∈ decodeUnits units, c = '\uFFFF') ↔ ∀ unit ∈ units, unit = 0xFFFF := by
  induction units using decodeUnits.induct with
  | case1 => simp [decodeUnits]
  | case2 unit => simp [decodeUnits, single_eq_iff]
  | case3 unit next rest pair ih =>
    have lead : unit ≠ 0xFFFF := by
      rintro rfl
      exact absurd pair (by simp [isLead])
    simp [decodeUnits, pair, join_ne, lead]
  | case4 unit next rest other ih =>
    rw [decodeUnits, if_neg other, List.forall_mem_cons, List.forall_mem_cons, ih, single_eq_iff]

/-- What is decoded of a text goes on behind it to the first unit that is zero. -/
theorem decodeTerminated_bytes_append {text : List Char} (absent : '\x00' ∉ text) (rest : Bytes) :
    decodeTerminated (bytes text ++ rest) =
      decode (bytes text ++ rest.take (2 * ((Bytes.units rest).takeWhile (· ≠ 0)).length)) := by
  have units : Bytes.units (bytes text ++ rest) = encode text ++ Bytes.units rest :=
    Bytes.units_flatMap_append (fun _ => encode_lt) rest
  have through : (encode text ++ Bytes.units rest).takeWhile (· ≠ 0) =
      encode text ++ (Bytes.units rest).takeWhile (· ≠ 0) := by
    refine List.takeWhile_append_of_pos fun unit member => decide_eq_true ?_
    rintro rfl
    exact zero_notMem_encode absent member
  rw [decodeTerminated, units, through, List.length_append, Nat.mul_add, ← length_bytes,
    List.take_length_add_append]

/-- A text comes back from its bytes with what the units behind them say. -/
theorem decode_bytes_append {text : List Char} (unmarked : ¬ IsMarked (bytes text))
    (long : 3 ≤ (bytes text).length) (rest : Bytes) :
    decode (bytes text ++ rest) = text ++ decodeUnits (Bytes.units rest) := by
  have plain : ¬ IsMarked (bytes text ++ rest) := fun marked => unmarked (marked.of_append long)
  rw [decode_of_not_isMarked plain, bytes, Bytes.units_flatMap_append (fun _ => encode_lt),
    decodeUnits_encode_append]

/-- A text does not come back from fewer than all of its units. -/
theorem not_prefix_decodeTerminated {text : List Char} (unmarked : ¬ IsMarked (bytes text))
    {count : Nat} (fewer : count < (encode text).length) :
    ¬ text <+: decodeTerminated ((bytes text).take (2 * count)) := by
  have plain (less : Nat) : ¬ IsMarked (((bytes text).take (2 * count)).take less) := by
    have cut := (List.take_prefix less _).trans (List.take_prefix (2 * count) (bytes text))
    exact fun marked => unmarked (marked.of_isPrefix cut)
  rw [decodeTerminated, decode_of_not_isMarked (plain _), Bytes.units_take, Bytes.units_take,
    units_bytes]
  refine not_prefix_decodeUnits (fun unit member => ?_) ?_
  · exact encode_lt (List.mem_of_mem_take (List.mem_of_mem_take member))
  · rw [List.length_take, List.length_take]
    omega

end Utf16

end Undelete.Text
