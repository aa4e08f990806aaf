import Undelete.Proofs.Bytes.Slices
import Undelete.Text.Utf16

/-!
Decoding undoes encoding. A character comes back from its one or two units whatever follows them,
and a text from its bytes when these do not begin like a byte-order mark and a zero unit, or
nothing, stands behind them.
-/

namespace Undelete.Text.Utf16

/-- The bytes of a text, two for each unit. -/
def bytes (text : List Char) : Bytes := (encode text).flatMap (Bytes.ofNat 2)

/-- Whether data begins with one of the byte-order marks. -/
def IsMarked (data : Bytes) : Prop :=
  [0xEF, 0xBB, 0xBF] <+: data ∨ [0xFE, 0xFF] <+: data ∨ [0xFF, 0xFE] <+: data

instance : DecidablePred IsMarked := fun _ => inferInstanceAs (Decidable (_ ∨ _ ∨ _))

theorem toNat_lt (c : Char) : c.toNat < 0x110000 := by
  have valid := c.valid
  simp only [UInt32.isValidChar, Nat.isValidChar] at valid
  have same : c.toNat = c.val.toNat := rfl
  omega

theorem not_surrogate (c : Char) : c.toNat < 0xD800 ∨ 0xDFFF < c.toNat := by
  have valid := c.valid
  simp only [UInt32.isValidChar, Nat.isValidChar] at valid
  have same : c.toNat = c.val.toNat := rfl
  omega

theorem encodeChar_lt {c : Char} {unit : Nat} (member : unit ∈ encodeChar c) : unit < 0x10000 := by
  have bound := toNat_lt c
  unfold encodeChar at member
  split at member
  next small =>
    cases List.mem_singleton.mp member
    exact small
  next =>
    simp only [List.mem_cons, List.not_mem_nil, or_false] at member
    omega

theorem encode_lt {text : List Char} {unit : Nat} (member : unit ∈ encode text) :
    unit < 0x10000 := by
  obtain ⟨c, -, member⟩ := List.mem_flatMap.mp member
  exact encodeChar_lt member

/-- Only the null character has a unit that is zero. -/
theorem zero_notMem_encode {text : List Char} (absent : '\x00' ∉ text) : 0 ∉ encode text := by
  intro member
  obtain ⟨c, present, member⟩ := List.mem_flatMap.mp member
  unfold encodeChar at member
  split at member
  next =>
    have null : c = '\x00' := Char.toNat_inj.mp (List.mem_singleton.mp member).symm
    exact absent (null ▸ present)
  next =>
    simp only [List.mem_cons, List.not_mem_nil, or_false] at member
    omega

theorem encode_cons (c : Char) (text : List Char) :
    encode (c :: text) = encodeChar c ++ encode text := rfl

theorem decodeUnits_cons {unit : Nat} (plain : isLead unit = false) (rest : List Nat) :
    decodeUnits (unit :: rest) = single unit :: decodeUnits rest := by
  cases rest with
  | nil => rfl
  | cons next rest => simp [decodeUnits, plain]

theorem decodeUnits_pair {high low : Nat} (lead : isLead high = true) (trail : isTrail low = true)
    (rest : List Nat) : decodeUnits (high :: low :: rest) = join high low :: decodeUnits rest := by
  simp [decodeUnits, lead, trail]

/-- A character comes back from its units, whatever follows. -/
theorem decodeUnits_encodeChar (c : Char) (rest : List Nat) :
    decodeUnits (encodeChar c ++ rest) = c :: decodeUnits rest := by
  have bound := toNat_lt c
  have outside := not_surrogate c
  unfold encodeChar
  split
  next small =>
    have lead : isLead c.toNat = false := by simp [isLead]; omega
    have trail : isTrail c.toNat = false := by simp [isTrail]; omega
    rw [List.singleton_append, decodeUnits_cons lead, single, lead, trail]
    simp [Char.ofNat_toNat]
  next large =>
    have lead : isLead (0xD800 + (c.toNat - 0x10000) / 0x400) = true := by
      simp [isLead]; omega
    have trail : isTrail (0xDC00 + (c.toNat - 0x10000) % 0x400) = true := by
      simp [isTrail]; omega
    have whole : 0x10000 + (0xD800 + (c.toNat - 0x10000) / 0x400 - 0xD800) * 0x400
        + (0xDC00 + (c.toNat - 0x10000) % 0x400 - 0xDC00) = c.toNat := by omega
    rw [List.cons_append, List.singleton_append, decodeUnits_pair lead trail, join, whole,
      Char.ofNat_toNat]

theorem decodeUnits_encode_append (text : List Char) (rest : List Nat) :
    decodeUnits (encode text ++ rest) = text ++ decodeUnits rest := by
  induction text with
  | nil => rfl
  | cons c text ih =>
    rw [encode_cons, List.append_assoc, decodeUnits_encodeChar, ih, List.cons_append]

theorem decodeUnits_encode (text : List Char) : decodeUnits (encode text) = text := by
  have whole := decodeUnits_encode_append text []
  rwa [decodeUnits, List.append_nil, List.append_nil] at whole

theorem length_bytes (text : List Char) : (bytes text).length = 2 * (encode text).length :=
  Bytes.length_flatMap_ofNat 2 _

theorem units_bytes (text : List Char) : Bytes.units (bytes text) = encode text :=
  Bytes.units_flatMap_ofNat fun _ => encode_lt

theorem decode_of_not_isMarked {data : Bytes} (unmarked : ¬ IsMarked data) :
    decode data = decodeUnits (Bytes.units data) := by
  unfold decode
  split
  next rest => exact absurd (.inl ⟨rest, rfl⟩) unmarked
  next rest => exact absurd (.inr (.inl ⟨rest, rfl⟩)) unmarked
  next rest => exact absurd (.inr (.inr ⟨rest, rfl⟩)) unmarked
  next => rfl

theorem takeWhile_append_of_head {units tail : List Nat} (absent : 0 ∉ units)
    (ended : tail.head?.all (· = 0)) : (units ++ tail).takeWhile (· ≠ 0) = units := by
  rw [List.takeWhile_append_of_pos]
  · cases tail with
    | nil => simp
    | cons first rest =>
      have zero : first = 0 := of_decide_eq_true ended
      simp [zero]
  · intro unit member
    have other : unit ≠ 0 := fun zero => absent (zero ▸ member)
    exact decide_eq_true other

theorem decode_bytes {text : List Char} (unmarked : ¬ IsMarked (bytes text)) :
    decode (bytes text) = text := by
  rw [decode_of_not_isMarked unmarked, units_bytes, decodeUnits_encode]

/-- What is decoded of units that end with a zero, or at their end. -/
theorem decodeTerminated_append {text : List Char} {tail : List Nat} (absent : '\x00' ∉ text)
    (small : ∀ unit ∈ tail, unit < 0x10000) (ended : tail.head?.all (· = 0)) :
    decodeTerminated ((encode text ++ tail).flatMap (Bytes.ofNat 2)) = decode (bytes text) := by
  have units : Bytes.units ((encode text ++ tail).flatMap (Bytes.ofNat 2)) = encode text ++ tail :=
    Bytes.units_flatMap_ofNat fun unit member =>
      (List.mem_append.mp member).elim encode_lt (small unit)
  have kept : ((encode text ++ tail).flatMap (Bytes.ofNat 2)).take (2 * (encode text).length) =
      bytes text := by
    rw [List.flatMap_append]
    exact List.take_left' (length_bytes text)
  rw [decodeTerminated, units, takeWhile_append_of_head (zero_notMem_encode absent) ended, kept]

/-- A text comes back from its units with a zero, or nothing, behind them. -/
theorem decodeTerminated_encode {text : List Char} {tail : List Nat} (absent : '\x00' ∉ text)
    (unmarked : ¬ IsMarked (bytes text)) (small : ∀ unit ∈ tail, unit < 0x10000)
    (ended : tail.head?.all (· = 0)) :
    decodeTerminated ((encode text ++ tail).flatMap (Bytes.ofNat 2)) = text := by
  rw [decodeTerminated_append absent small ended, decode_bytes unmarked]

end Undelete.Text.Utf16
