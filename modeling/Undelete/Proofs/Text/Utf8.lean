import Mathlib.Algebra.Ring.Nat
import Mathlib.Data.List.Basic
import Undelete.Text.Utf8

/-!
Which bytes a decoded character was taken from. A replacement can stand for many things. Any other
character comes from a first byte and from as many bytes behind it as the first one asks for, so
that its number tells how many there were.
-/

namespace Undelete.Text.Utf8

/-- Whether a byte continues a sequence. -/
def IsTail (byte : UInt8) : Prop := 0x80 ≤ byte.toNat ∧ byte.toNat ≤ 0xBF

theorem decodeFrom_cons (pending : Option Pending) (byte : UInt8) (rest : Bytes) :
    decodeFrom pending (byte :: rest) =
      (step pending byte.toNat).1 ++ decodeFrom (step pending byte.toNat).2 rest := by
  cases pending <;> rfl

theorem toNat_ofNat_eq (value : Nat) :
    (Char.ofNat value).toNat = value ∨ (Char.ofNat value).toNat = 0 := by
  by_cases valid : value.isValidChar
  · have same : Char.ofNat value = Char.ofNatAux value valid := dif_pos valid
    exact .inl (congrArg Char.toNat same)
  · have null : Char.ofNat value = '\x00' := dif_neg valid
    exact .inr (congrArg Char.toNat null)

theorem toNat_ofNat_le (value : Nat) : (Char.ofNat value).toNat ≤ value := by
  rcases toNat_ofNat_eq value with same | null <;> omega

/-- The first character after a sequence under way is a replacement, or it is what the sequence
comes to with the bytes that it misses. The induction is on how many it misses. -/
theorem exists_of_pending {count bits low high : Nat} {data : Bytes} {c : Char}
    {later : List Char} (above : 0x80 ≤ low) (below : high ≤ 0xBF)
    (decoded : decodeFrom (some ⟨count + 1, bits, low, high⟩) data = c :: later)
    (proper : c ≠ replacement) :
    ∃ tails rest value, data = tails ++ rest ∧ tails.length = count + 1 ∧
      (∀ byte ∈ tails, IsTail byte) ∧ c = Char.ofNat value ∧
      (bits * 64 + (low - 0x80)) * 64 ^ count ≤ value ∧ value < (bits + 1) * 64 ^ (count + 1) ∧
      decode rest = later := by
  induction count generalizing data bits low high with
  | zero =>
    cases data with
    | nil =>
      cases decoded
      exact absurd rfl proper
    | cons byte rest =>
      rw [decodeFrom_cons, step] at decoded
      split at decoded
      next inside =>
        obtain ⟨rfl, rfl⟩ := List.cons.inj decoded
        dsimp only at inside
        have tail : IsTail byte := ⟨by omega, by omega⟩
        refine ⟨[byte], rest, bits * 64 + byte.toNat % 64, rfl, rfl, ?_, rfl, ?_, ?_, rfl⟩
        · simpa using tail
        · omega
        · omega
      next outside => exact absurd (List.cons.inj decoded).1.symm proper
  | succ count ih =>
    cases data with
    | nil =>
      cases decoded
      exact absurd rfl proper
    | cons byte rest =>
      rw [decodeFrom_cons, step] at decoded
      split at decoded
      next inside =>
        dsimp only at inside
        have further : decodeFrom (some ⟨count + 1, bits * 64 + byte.toNat % 64, 0x80, 0xBF⟩)
            rest = c :: later := by simpa using decoded
        obtain ⟨tails, rest, value, rfl, length, all, same, least, most, onward⟩ :=
          ih (Nat.le_refl _) (Nat.le_refl _) further
        have tail : IsTail byte := ⟨by omega, by omega⟩
        refine ⟨byte :: tails, rest, value, rfl, congrArg (· + 1) length,
          List.forall_mem_cons.mpr ⟨tail, all⟩, same, ?_, ?_, onward⟩
        · calc (bits * 64 + (low - 0x80)) * 64 ^ (count + 1)
              ≤ (bits * 64 + byte.toNat % 64) * 64 ^ (count + 1) :=
                Nat.mul_le_mul_right _ (by omega)
            _ = ((bits * 64 + byte.toNat % 64) * 64 + (0x80 - 0x80)) * 64 ^ count := by
                rw [Nat.pow_succ, Nat.mul_comm (64 ^ count), ← Nat.mul_assoc]
                rfl
            _ ≤ value := least
        · calc value < (bits * 64 + byte.toNat % 64 + 1) * 64 ^ (count + 1) := most
            _ ≤ (bits + 1) * 64 * 64 ^ (count + 1) := Nat.mul_le_mul_right _ (by omega)
            _ = (bits + 1) * 64 ^ (count + 1 + 1) := by
                rw [Nat.pow_succ 64 (count + 1), Nat.mul_comm (64 ^ (count + 1)), Nat.mul_assoc]
      next outside => exact absurd (List.cons.inj decoded).1.symm proper

/-- A character that needs three bytes was taken from three. -/
theorem exists_of_decode {data : Bytes} {c : Char} {later : List Char}
    (decoded : decode data = c :: later) (proper : c ≠ replacement) (wide : 0x800 ≤ c.toNat)
    (narrow : c.toNat < 0x10000) :
    ∃ first second third rest, data = first :: second :: third :: rest ∧
      (0xE0 ≤ first.toNat ∧ first.toNat ≤ 0xEF) ∧ IsTail second ∧ IsTail third ∧
      decode rest = later := by
  cases data with
  | nil => cases decoded
  | cons first behind =>
    -- Sequences of other lengths come to smaller or to greater numbers.
    have two : ∀ bits, bits < 32 →
        decodeFrom (some ⟨1, bits, 0x80, 0xBF⟩) behind ≠ c :: later := by
      intro bits small onward
      obtain ⟨-, -, value, -, -, -, rfl, -, most, -⟩ :=
        exists_of_pending (by decide) (by decide) onward proper
      have := toNat_ofNat_le value
      omega
    have three : ∀ bits low high, 0x80 ≤ low → high ≤ 0xBF →
        (0xE0 ≤ first.toNat ∧ first.toNat ≤ 0xEF) →
        decodeFrom (some ⟨2, bits, low, high⟩) behind = c :: later →
        ∃ head second third rest, first :: behind = head :: second :: third :: rest ∧
          (0xE0 ≤ head.toNat ∧ head.toNat ≤ 0xEF) ∧ IsTail second ∧ IsTail third ∧
          decode rest = later := by
      intro bits low high above below lead onward
      obtain ⟨tails, rest, -, same, length, all, -, -, -, finish⟩ :=
        exists_of_pending above below onward proper
      obtain ⟨second, third, rfl⟩ := List.length_eq_two.mp length
      exact ⟨first, second, third, rest, congrArg (first :: ·) same, lead, all second (by simp),
        all third (by simp), finish⟩
    have four : ∀ bits low high, 0x80 ≤ low → high ≤ 0xBF → 16 ≤ bits * 64 + (low - 0x80) →
        decodeFrom (some ⟨3, bits, low, high⟩) behind ≠ c :: later := by
      intro bits low high above below great onward
      obtain ⟨-, -, value, -, -, -, rfl, least, -, -⟩ :=
        exists_of_pending above below onward proper
      have := toNat_ofNat_eq value
      omega
    rw [decode, decodeFrom_cons, step, lead] at decoded
    split at decoded
    next =>
      obtain ⟨rfl, -⟩ := List.cons.inj decoded
      have := toNat_ofNat_le first.toNat
      omega
    split at decoded
    next => exact absurd decoded (two _ (Nat.mod_lt _ (by decide)))
    split at decoded
    next => exact three _ _ _ (by decide) (by decide) ⟨by omega, by omega⟩ decoded
    split at decoded
    next => exact three _ _ _ (by decide) (by decide) ⟨by omega, by omega⟩ decoded
    split at decoded
    next => exact three _ _ _ (by decide) (by decide) ⟨by omega, by omega⟩ decoded
    split at decoded
    next => exact absurd decoded (four _ _ _ (by decide) (by decide) (by decide))
    split at decoded
    next => exact absurd decoded (four _ _ _ (by decide) (by decide) (by decide))
    split at decoded
    next => exact absurd decoded (four _ _ _ (by decide) (by decide) (by omega))
    next => exact absurd (List.cons.inj decoded).1.symm proper

end Undelete.Text.Utf8
