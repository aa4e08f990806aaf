import Undelete.Bytes

/-!
Decoding of UTF-8 that never fails. Every longest piece of data that begins a well-formed
sequence and cannot be continued becomes one U+FFFD, and so does every byte that begins none.
-/

namespace Undelete.Text.Utf8

def replacement : Char := '\uFFFD'

/-- A sequence under way: how many bytes are missing, the bits so far, and the range in which
the next byte has to lie. -/
structure Pending where
  missing : Nat
  bits : Nat
  low : Nat
  high : Nat

/-- What a byte does where a new sequence may begin. -/
def lead (byte : Nat) : List Char × Option Pending :=
  if byte < 0x80 then ([Char.ofNat byte], none)
  else if 0xC2 ≤ byte ∧ byte ≤ 0xDF then ([], some ⟨1, byte % 32, 0x80, 0xBF⟩)
  else if byte = 0xE0 then ([], some ⟨2, 0, 0xA0, 0xBF⟩)
  else if byte = 0xED then ([], some ⟨2, 0xD, 0x80, 0x9F⟩)
  else if 0xE1 ≤ byte ∧ byte ≤ 0xEF then ([], some ⟨2, byte % 16, 0x80, 0xBF⟩)
  else if byte = 0xF0 then ([], some ⟨3, 0, 0x90, 0xBF⟩)
  else if byte = 0xF4 then ([], some ⟨3, 4, 0x80, 0x8F⟩)
  else if 0xF1 ≤ byte ∧ byte ≤ 0xF3 then ([], some ⟨3, byte % 8, 0x80, 0xBF⟩)
  else ([replacement], none)

def step (pending : Option Pending) (byte : Nat) : List Char × Option Pending :=
  match pending with
  | none => lead byte
  | some p =>
    if p.low ≤ byte ∧ byte ≤ p.high then
      let bits := p.bits * 64 + byte % 64
      if p.missing ≤ 1 then ([Char.ofNat bits], none)
      else ([], some ⟨p.missing - 1, bits, 0x80, 0xBF⟩)
    else
      let (chars, next) := lead byte
      (replacement :: chars, next)

def decodeFrom : Option Pending → Bytes → List Char
  | none, [] => []
  | some _, [] => [replacement]
  | pending, byte :: rest =>
    let (chars, next) := step pending byte.toNat
    chars ++ decodeFrom next rest

def decode (data : Bytes) : List Char := decodeFrom none data

end Undelete.Text.Utf8
