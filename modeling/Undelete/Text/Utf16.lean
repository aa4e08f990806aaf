import Undelete.Text.Utf8

/-!
Names on disk are little-endian UTF-16. Decoding never fails: a surrogate without its partner
becomes U+FFFD. A byte-order mark in front is taken off and may announce another encoding.
-/

namespace Undelete.Text.Utf16

def isLead (unit : Nat) : Bool := 0xD800 ≤ unit && unit ≤ 0xDBFF

def isTrail (unit : Nat) : Bool := 0xDC00 ≤ unit && unit ≤ 0xDFFF

def join (high low : Nat) : Char :=
  Char.ofNat (0x10000 + (high - 0xD800) * 0x400 + (low - 0xDC00))

def single (unit : Nat) : Char :=
  if isLead unit || isTrail unit then Utf8.replacement else Char.ofNat unit

def decodeUnits : List Nat → List Char
  | [] => []
  | [unit] => [single unit]
  | unit :: next :: rest =>
    if isLead unit && isTrail next then join unit next :: decodeUnits rest
    else single unit :: decodeUnits (next :: rest)

/-- The one or two units of a character. -/
def encodeChar (c : Char) : List Nat :=
  if c.toNat < 0x10000 then [c.toNat]
  else [0xD800 + (c.toNat - 0x10000) / 0x400, 0xDC00 + (c.toNat - 0x10000) % 0x400]

def encode (text : List Char) : List Nat := text.flatMap encodeChar

def swapBytes (unit : Nat) : Nat := unit % 256 * 256 + unit / 256

def decode (data : Bytes) : List Char :=
  match data with
  | 0xEF :: 0xBB :: 0xBF :: rest => Utf8.decode rest
  | 0xFE :: 0xFF :: rest => decodeUnits ((Bytes.units rest).map swapBytes)
  | 0xFF :: 0xFE :: rest => decodeUnits (Bytes.units rest)
  | _ => decodeUnits (Bytes.units data)

/-- Decode up to the first unit that is zero. -/
def decodeTerminated (data : Bytes) : List Char :=
  decode (data.take (2 * ((Bytes.units data).takeWhile (· ≠ 0)).length))

end Undelete.Text.Utf16
