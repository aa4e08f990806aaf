import Undelete.Proofs.Text.Utf16
import Undelete.Proofs.Text.Utf8

/-!
A text whose bytes begin like a byte-order mark is not what these bytes are decoded to. Without the
mark there are too few units left for it. Where the mark announces UTF-8, decoding that gave back
the text would take three bytes for each of its characters, which have two.
-/

namespace Undelete.Text.Utf16

theorem length_encodeChar_single {unit : Nat} (small : unit < 0x10000) :
    (encodeChar (single unit)).length = 1 := by
  have narrow : (single unit).toNat < 0x10000 := by
    unfold single
    split
    · decide
    · exact Nat.lt_of_le_of_lt (Utf8.toNat_ofNat_le unit) small
  rw [encodeChar, if_pos narrow]
  rfl

theorem length_encodeChar_le (c : Char) : (encodeChar c).length ≤ 2 := by
  unfold encodeChar
  split
  · exact Nat.le_succ 1
  · exact Nat.le_refl 2

/-- Decoding makes no units up. -/
theorem length_encode_decodeUnits_le {units : List Nat} (small : ∀ unit ∈ units, unit < 0x10000) :
    (encode (decodeUnits units)).length ≤ units.length := by
  induction units using decodeUnits.induct with
  | case1 => exact Nat.le_refl 0
  | case2 unit =>
    rw [decodeUnits, encode_cons, List.length_append,
      length_encodeChar_single (small unit List.mem_cons_self)]
    exact Nat.le_refl 1
  | case3 unit next rest pair ih =>
    have later := ih fun unit member =>
      small unit (List.mem_cons_of_mem _ (List.mem_cons_of_mem _ member))
    have two := length_encodeChar_le (join unit next)
    rw [decodeUnits, if_pos pair, encode_cons, List.length_append, List.length_cons,
      List.length_cons]
    omega
  | case4 unit next rest other ih =>
    have later := ih fun unit member => small unit (List.mem_cons_of_mem _ member)
    have one := length_encodeChar_single (small unit List.mem_cons_self)
    rw [decodeUnits, if_neg other, encode_cons, List.length_append, one, List.length_cons]
    omega

/-- Decoded units are fewer than those of a text that needs more. -/
theorem not_prefix_decodeUnits {text : List Char} {units : List Nat}
    (small : ∀ unit ∈ units, unit < 0x10000) (fewer : units.length < (encode text).length) :
    ¬ text <+: decodeUnits units := by
  rintro ⟨more, whole⟩
  have bound := length_encode_decodeUnits_le small
  rw [← whole, encode, List.flatMap_append, List.length_append] at bound
  rw [encode] at fewer
  omega

/-- Whether a byte begins or continues a sequence of three. As the higher byte of a unit it leaves
the unit far from zero, from surrogates and from the end of the plane. -/
def IsWide (byte : UInt8) : Prop :=
  Utf8.IsTail byte ∨ 0xE0 ≤ byte.toNat ∧ byte.toNat ≤ 0xEF

/-- The first character of a text whose first unit is wide. -/
theorem toNat_of_isWide {c : Char} {low high : UInt8} {text : List Char} {rest : Bytes}
    (stored : bytes (c :: text) = low :: high :: rest) (wide : IsWide high) :
    bytes text = rest ∧ c ≠ Utf8.replacement ∧ 0x800 ≤ c.toNat ∧ c.toNat < 0x10000 := by
  have bound := toNat_lt c
  rw [bytes, encode_cons, List.flatMap_append, ← bytes] at stored
  by_cases small : c.toNat < 0x10000
  · rw [encodeChar, if_pos small] at stored
    obtain ⟨-, same, rfl⟩ : _ ∧ UInt8.ofNat (c.toNat / 256) = high ∧ bytes text = rest := by
      simpa [Bytes.ofNat] using stored
    have value : high.toNat = c.toNat / 256 := by
      rw [← same, UInt8.toNat_ofNat']
      omega
    unfold IsWide Utf8.IsTail at wide
    refine ⟨rfl, ?_, by omega, small⟩
    rintro rfl
    have replaced : Utf8.replacement.toNat = 0xFFFD := rfl
    omega
  · rw [encodeChar, if_neg small] at stored
    have same : UInt8.ofNat ((0xD800 + (c.toNat - 0x10000) / 0x400) / 256) = high := by
      have split := stored
      simp only [List.flatMap_cons, Bytes.ofNat, List.cons_append, List.cons.injEq] at split
      exact split.2.1
    have value : high.toNat = (0xD800 + (c.toNat - 0x10000) / 0x400) / 256 := by
      rw [← same, UInt8.toNat_ofNat']
      omega
    unfold IsWide Utf8.IsTail at wide
    omega

/-- Bytes that are decoded to a text do not follow its own first bytes. The induction keeps at
least one wide unit in front of those that are decoded. -/
theorem not_prefix_decode {text : List Char} {front rest : Bytes}
    (stored : bytes text = front ++ rest) (long : 2 ≤ front.length)
    (wide : ∀ byte ∈ front, IsWide byte) : ¬ text <+: Utf8.decode rest := by
  induction text generalizing front rest with
  | nil =>
    have none := congrArg List.length stored
    rw [List.length_append] at none
    have empty : (bytes []).length = 0 := rfl
    omega
  | cons c text ih =>
    rintro ⟨more, decoded⟩
    match front, long with
    | low :: high :: behind, _ =>
      obtain ⟨stored, proper, least, most⟩ := toNat_of_isWide stored (wide high (by simp))
      obtain ⟨first, second, third, later, rfl, lead, tail, tail', onward⟩ :=
        Utf8.exists_of_decode decoded.symm proper least most
      have moved : bytes text = (behind ++ [first, second, third]) ++ later := by
        rw [stored, List.append_assoc]
        rfl
      refine ih moved (by simp) ?_ ⟨more, onward.symm⟩
      intro byte member
      rcases List.mem_append.mp member with old | new
      · exact wide byte (List.mem_cons_of_mem _ (List.mem_cons_of_mem _ old))
      · simp only [List.mem_cons, List.not_mem_nil, or_false] at new
        rcases new with rfl | rfl | rfl
        · exact .inr lead
        · exact .inl tail
        · exact .inl tail'

theorem units_lt {data : Bytes} {unit : Nat} (member : unit ∈ Bytes.units data) :
    unit < 0x10000 := by
  induction data using Bytes.units.induct with
  | case1 low high rest ih =>
    rcases List.mem_cons.mp member with rfl | later
    · have := low.toNat_lt
      have := high.toNat_lt
      omega
    · exact ih later
  | case2 data short =>
    rw [Bytes.units.eq_2 data short] at member
    cases member

/-- Marked bytes do not even decode to anything that begins with their text. -/
theorem not_prefix_of_isMarked {text : List Char} (marked : IsMarked (bytes text)) :
    ¬ text <+: decode (bytes text) := by
  have units := units_bytes text
  obtain ⟨rest, stored⟩ | ⟨rest, stored⟩ | ⟨rest, stored⟩ := marked
  · rw [← stored]
    have wide : ∀ byte ∈ [0xEF, 0xBB, 0xBF], IsWide byte := by simp [IsWide, Utf8.IsTail]
    exact not_prefix_decode stored.symm (by decide) wide
  · rw [← stored] at units ⊢
    have fewer : ((Bytes.units rest).map swapBytes).length < (encode text).length := by
      rw [← units, List.length_map]
      exact Nat.lt_succ_self _
    refine not_prefix_decodeUnits ?_ fewer
    intro unit member
    obtain ⟨swapped, known, rfl⟩ := List.mem_map.mp member
    have small := units_lt known
    unfold swapBytes
    omega
  · rw [← stored] at units ⊢
    have fewer : (Bytes.units rest).length < (encode text).length := by
      rw [← units]
      exact Nat.lt_succ_self _
    exact not_prefix_decodeUnits (fun unit => units_lt) fewer

end Undelete.Text.Utf16
