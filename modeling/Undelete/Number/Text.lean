/-!
Numbers as text: padded decimals, upper-case hexadecimal digits, and quotients rounded up.
-/

namespace Undelete.Number

def padLeft (fill : Char) (width : Nat) (text : List Char) : List Char :=
  List.replicate (width - text.length) fill ++ text

def padRight (fill : Char) (width : Nat) (text : List Char) : List Char :=
  text ++ List.replicate (width - text.length) fill

/-- Decimal digits with zeros in front up to `width`. -/
def decimal (width value : Nat) : String :=
  String.ofList (padLeft '0' width (Nat.toDigits 10 value))

/-- Hexadecimal digits in upper case with zeros in front up to `width`. -/
def upperHex (width value : Nat) : String :=
  String.ofList (padLeft '0' width ((Nat.toDigits 16 value).map Char.toUpper))

def ceilDiv (value size : Nat) : Nat := (value + size - 1) / size

end Undelete.Number
