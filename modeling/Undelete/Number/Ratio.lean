/-!
Shares and limits in floating point. A value that is not a number passes through a clamp.
Rounding up gives a 64-bit word: nothing below zero, and the largest word above them all.
-/

namespace Undelete.Number

def ratio (part whole : Nat) : Float := part.toFloat / whole.toFloat

def clamp (low high value : Float) : Float :=
  if value < low then low else if high < value then high else value

def ceilWord (value : Float) : Nat :=
  let word := value.toUInt64
  if word.toFloat < value then min (word.toNat + 1) (UInt64.size - 1) else word.toNat

end Undelete.Number
