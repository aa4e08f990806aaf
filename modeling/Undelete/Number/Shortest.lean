/-!
Decimal text of binary floating-point numbers. A finite number is a mantissa times a power of
two. Its shortest text has the fewest digits that lie in the interval of reals which round to
it, and of those the digits nearest to it; text with fixed places rounds the exact value, a half
to the even neighbour.
-/

namespace Undelete.Number

/-- A finite magnitude `mantissa * 2 ^ exponent`. -/
structure Binary where
  mantissa : Nat
  exponent : Int
  deriving Repr, DecidableEq

namespace Binary

def hiddenBit : Nat := 1 <<< 52

def ofBits (bits : Nat) : Binary :=
  let fraction := bits % hiddenBit
  let scale := bits / hiddenBit % 2048
  if scale = 0 then ⟨fraction, -1074⟩ else ⟨hiddenBit + fraction, (scale : Int) - 1075⟩

/-- Whether the neighbour below is only half as far away as the one above. -/
def isBoundary (x : Binary) : Bool := x.mantissa = hiddenBit && x.exponent ≠ -1074

/-- The quotient `value * 2 ^ binary / 10 ^ decimal` as a numerator and a denominator. -/
def scaled (value : Nat) (binary decimal : Int) : Nat × Nat :=
  (value <<< binary.toNat * Nat.pow 10 (-decimal).toNat,
    1 <<< (-binary).toNat * Nat.pow 10 decimal.toNat)

/-- Whether `digits * 10 ^ decimal` rounds to the number. -/
def covers (x : Binary) (decimal : Int) (digits : Nat) : Bool :=
  let below := if x.isBoundary then 1 else 2
  let (low, unit) := scaled (4 * x.mantissa - below) (x.exponent - 2) decimal
  let (high, _) := scaled (4 * x.mantissa + 2) (x.exponent - 2) decimal
  if x.mantissa % 2 = 0 then low ≤ digits * unit && digits * unit ≤ high
  else low < digits * unit && digits * unit < high

/-- The nearer of the two neighbours of the number among multiples of `10 ^ decimal`, if one of
them rounds to it. -/
def onGrid? (x : Binary) (decimal : Int) : Option Nat :=
  let (value, unit) := scaled x.mantissa x.exponent decimal
  let floor := value / unit
  let rest := value % unit
  match x.covers decimal floor && floor ≠ 0, x.covers decimal (floor + 1) with
  | true, true =>
    if 2 * rest < unit ∨ (2 * rest = unit ∧ floor % 2 = 0) then some floor else some (floor + 1)
  | true, false => some floor
  | false, true => some (floor + 1)
  | false, false => none

/-- The exponent of the leading decimal digit of a number that is not zero. -/
def leading (x : Binary) : Int :=
  let (above, _) := scaled x.mantissa x.exponent 0
  let (value, unit) := scaled x.mantissa x.exponent (-400)
  if x.exponent ≥ 0 then (Nat.toDigits 10 above).length - 1
  else (Nat.toDigits 10 (value / unit)).length - 401

/-- Digits with an exponent, on the coarsest grid from `10 ^ decimal` down that has any. -/
def search (x : Binary) : (steps : Nat) → (decimal : Int) → Nat × Int
  | 0, decimal => (0, decimal)
  | steps + 1, decimal =>
    match x.onGrid? decimal with
    | some digits => (digits, decimal)
    | none => search x steps (decimal - 1)

def stripZeros : (steps : Nat) → Nat × Int → Nat × Int
  | 0, result => result
  | steps + 1, (digits, decimal) =>
    if digits % 10 = 0 ∧ digits ≠ 0 then stripZeros steps (digits / 10, decimal + 1)
    else (digits, decimal)

/-- The shortest digits and the power of ten that they count. -/
def shortest (x : Binary) : Nat × Int := stripZeros 20 (x.search 20 x.leading)

/-- The number times `10 ^ places`, rounded to a whole one. -/
def rounded (x : Binary) (places : Nat) : Nat :=
  let (value, unit) := scaled x.mantissa x.exponent (-places)
  let floor := value / unit
  let rest := value % unit
  if unit < 2 * rest ∨ (2 * rest = unit ∧ floor % 2 = 1) then floor + 1 else floor

end Binary

def signBit : Nat := 1 <<< 63

def signText (bits : Nat) : String := if signBit ≤ bits then "-" else ""

/-- Text of the digits: positional while the point stays near them, else with an exponent. -/
def arrange (digits : List Char) (decimal : Int) : List Char :=
  let point := decimal + digits.length
  if 0 ≤ decimal ∧ point ≤ 16 then digits ++ List.replicate decimal.toNat '0' ++ ['.', '0']
  else if 0 < point ∧ point ≤ 16 then digits.take point.toNat ++ '.' :: digits.drop point.toNat
  else if -5 < point ∧ point ≤ 0 then '0' :: '.' :: List.replicate (-point).toNat '0' ++ digits
  else
    let exponent := 'e' :: (toString (point - 1)).toList
    match digits with
    | first :: next :: rest => first :: '.' :: next :: rest ++ exponent
    | _ => digits ++ exponent

/-- The shortest text that reads back, for a finite number. -/
def shortestText (value : Float) : String :=
  let bits := value.toBits.toNat
  let x := Binary.ofBits (bits % signBit)
  if x.mantissa = 0 then signText bits ++ "0.0"
  else
    let (digits, decimal) := x.shortest
    signText bits ++ String.ofList (arrange (Nat.toDigits 10 digits) decimal)

/-- Text with a fixed number of places behind the point. -/
def fixedText (places : Nat) (value : Float) : String :=
  let bits := value.toBits.toNat
  if value.isNaN then "NaN"
  else if value.isInf then signText bits ++ "inf"
  else
    let digits := Nat.toDigits 10 ((Binary.ofBits (bits % signBit)).rounded places)
    let padded := List.replicate (places + 1 - digits.length) '0' ++ digits
    let whole := padded.length - places
    signText bits ++ String.ofList (padded.take whole ++ '.' :: padded.drop whole)

end Undelete.Number
