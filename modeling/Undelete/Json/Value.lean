import Undelete.Json.Syntax
import Undelete.Text.Utf16

/-!
Meaning of JSON values: numbers in range, texts of whole characters, and records with known
fields, which are written as objects or as arrays of the fields in order.
-/

namespace Undelete.Json

def hexNumber (digits : List Char) : Nat :=
  digits.foldl (fun total c =>
    total * 16 + (if c.isDigit then c.toNat - 48 else c.toLower.toNat - 87)) 0

/-- The characters that a text stands for; half a surrogate pair is refused. -/
def unescape? : List Char → Option (List Char)
  | [] => some []
  | '\\' :: 'u' :: a :: b :: c :: d :: '\\' :: 'u' :: e :: f :: g :: h :: rest =>
    let first := hexNumber [a, b, c, d]
    let second := hexNumber [e, f, g, h]
    if Text.Utf16.isTrail first then none
    else if Text.Utf16.isLead first then
      if Text.Utf16.isTrail second then (unescape? rest).map (Text.Utf16.join first second :: ·)
      else none
    else (unescape? ('\\' :: 'u' :: e :: f :: g :: h :: rest)).map (Char.ofNat first :: ·)
  | '\\' :: 'u' :: a :: b :: c :: d :: rest =>
    let unit := hexNumber [a, b, c, d]
    if Text.Utf16.isLead unit || Text.Utf16.isTrail unit then none
    else (unescape? rest).map (Char.ofNat unit :: ·)
  | '\\' :: 'b' :: rest => (unescape? rest).map ('\x08' :: ·)
  | '\\' :: 'f' :: rest => (unescape? rest).map ('\x0c' :: ·)
  | '\\' :: 'n' :: rest => (unescape? rest).map ('\n' :: ·)
  | '\\' :: 'r' :: rest => (unescape? rest).map ('\r' :: ·)
  | '\\' :: 't' :: rest => (unescape? rest).map ('\t' :: ·)
  | '\\' :: c :: rest => (unescape? rest).map (c :: ·)
  | c :: rest => (unescape? rest).map (c :: ·)

def digitsValue (digits : List Char) : Nat :=
  digits.foldl (fun total c => total * 10 + (c.toNat - 48)) 0

/-- A number written with digits only and at most `limit`. -/
def literalNat? (limit : Nat) (literal : List Char) : Option Nat :=
  if literal ≠ [] ∧ literal.all Char.isDigit then
    let value := digitsValue literal
    if value ≤ limit then some value else none
  else none

def toNat? (limit : Nat) : Json → Option Nat
  | .number literal => literalNat? limit literal
  | _ => none

def toBool? : Json → Option Bool
  | .bool value => some value
  | _ => none

def toText? : Json → Option String
  | .text raw => (unescape? raw).map String.ofList
  | _ => none

def toOption? {α : Type} (decode : Json → Option α) : Json → Option (Option α)
  | .null => some none
  | value => (decode value).map some

def toList? {α : Type} (decode : Json → Option α) : Json → Option (List α)
  | .array items => items.mapM decode
  | _ => none

/-- The largest significand: digits beyond it move the exponent or are dropped. -/
def maxSignificand : Nat := UInt64.size - 1

/-- Take digits while the significand has room for them; tells how many were taken. -/
def takeDigits : Nat → List Char → Nat × Nat
  | significand, [] => (significand, 0)
  | significand, c :: rest =>
    let longer := significand * 10 + (c.toNat - 48)
    if maxSignificand < longer then (significand, 0)
    else
      let (final, count) := takeDigits longer rest
      (final, count + 1)

/-- The significand times a power of ten, in at most two steps through floating point. Too large
a result is refused, too small a one becomes zero. -/
def scale? : (steps : Nat) → Float → Int → Option Float
  | 0, value, _ => some value
  | steps + 1, value, exponent =>
    if exponent.natAbs ≤ 308 then
      let power := Float.ofScientific 1 false exponent.natAbs
      if 0 ≤ exponent then
        let product := value * power
        if product.isInf then none else some product
      else some (value / power)
    else if value == 0.0 then some value
    else if 0 ≤ exponent then none
    else scale? steps (value / 1e308) (exponent + 308)

/-- Exponents are 32-bit integers; one that does not fit is as good as infinite. -/
def maxExponent : Nat := 1 <<< 31 - 1

/-- The sign and size of a written exponent. -/
def exponentOf : List Char → Bool × Nat
  | '-' :: digits => (true, digitsValue digits)
  | '+' :: digits => (false, digitsValue digits)
  | digits => (false, digitsValue digits)

def magnitude? (literal : List Char) : Option Float :=
  let whole := literal.takeWhile Char.isDigit
  let afterWhole := literal.dropWhile Char.isDigit
  let fraction := match afterWhole with
    | '.' :: rest => rest.takeWhile Char.isDigit
    | _ => []
  let exponentPart := (afterWhole.dropWhile fun c => c = '.' || c.isDigit).drop 1
  let (wholeValue, taken) := takeDigits 0 whole
  let (significand, places) := takeDigits wholeValue fraction
  let start : Int := ((whole.length - taken : Nat) : Int) - places
  let (isNegative, size) := exponentOf exponentPart
  if maxExponent < size then
    if significand ≠ 0 ∧ ¬ isNegative then none else some 0.0
  else
    let exponent := if isNegative then start - size else start + size
    scale? 4 (UInt64.ofNat significand).toFloat exponent

def toFloat? : Json → Option Float
  | .number ('-' :: literal) => (magnitude? literal).map fun value => -value
  | .number literal => magnitude? literal
  | _ => none

/-- The members with known names; an unknown name is passed over, a known one may not recur. -/
def knownMembers? (names : List String) : List (List Char × Json) → Option (List (String × Json))
  | [] => some []
  | (raw, value) :: rest => do
    let key := String.ofList (← unescape? raw)
    let others ← knownMembers? names rest
    if names.contains key then
      if others.any (·.1 = key) then none else some ((key, value) :: others)
    else some others

/-- The fields of a record by name. An array holds them in order; `complete` asks for all. -/
def fields? (names : List String) (complete : Bool) : Json → Option (List (String × Json))
  | .object members => knownMembers? names members
  | .array items =>
    if items.length ≤ names.length ∧ (complete → items.length = names.length) then
      some (names.zip items)
    else none
  | _ => none

/-- A field that has to be there. -/
def field? {α : Type} (fields : List (String × Json)) (name : String)
    (decode : Json → Option α) : Option α :=
  (fields.lookup name).bind decode

/-- A field that has a default. -/
def fieldOr? {α : Type} (fields : List (String × Json)) (name : String)
    (decode : Json → Option α) (fallback : α) : Option α :=
  match fields.lookup name with
  | some value => decode value
  | none => some fallback

/-- A variant is written as its name, or as an object with its name and its contents. -/
def toVariant? : Json → Option (String × Option Json)
  | .text raw => (unescape? raw).map fun name => (String.ofList name, none)
  | .object [(raw, value)] => (unescape? raw).map fun name => (String.ofList name, some value)
  | _ => none

/-- A variant without contents. -/
def toUnit? {α : Type} (choices : List (String × α)) (value : Json) : Option α :=
  match toVariant? value with
  | some (name, none) | some (name, some .null) => choices.lookup name
  | _ => none

end Undelete.Json
