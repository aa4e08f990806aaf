/-!
JSON as it is written. A number is kept as its literal and a text as the characters between its
quotes, so that a reader can pass over a value whose meaning it does not need: a literal may be
out of range, and an escape may name half a character.
-/

namespace Undelete

inductive Json where
  | null
  | bool (value : Bool)
  | number (literal : List Char)
  | text (raw : List Char)
  | array (items : List Json)
  | object (members : List (List Char × Json))
  deriving Repr

namespace Json

def isSpace (c : Char) : Bool := c = ' ' || c = '\t' || c = '\n' || c = '\r'

def skipSpace (input : List Char) : List Char := input.dropWhile isSpace

def isHexDigit (c : Char) : Bool :=
  c.isDigit || ('a' ≤ c && c ≤ 'f') || ('A' ≤ c && c ≤ 'F')

/-- The characters of a text up to its closing quote, and what follows the quote. Control
characters and unknown escapes are refused. -/
def textBody? : List Char → Option (List Char × List Char)
  | '"' :: rest => some ([], rest)
  | '\\' :: 'u' :: a :: b :: c :: d :: rest =>
    if isHexDigit a && isHexDigit b && isHexDigit c && isHexDigit d then
      (textBody? rest).map fun (raw, after) => ('\\' :: 'u' :: a :: b :: c :: d :: raw, after)
    else none
  | '\\' :: escape :: rest =>
    if ['"', '\\', '/', 'b', 'f', 'n', 'r', 't'].contains escape then
      (textBody? rest).map fun (raw, after) => ('\\' :: escape :: raw, after)
    else none
  | c :: rest =>
    if c = '\\' || c.toNat < 0x20 then none
    else (textBody? rest).map fun (raw, after) => (c :: raw, after)
  | [] => none

/-- Digits, of which there has to be one. -/
def digits? (input : List Char) : Option (List Char × List Char) :=
  let digits := input.takeWhile Char.isDigit
  if digits = [] then none else some (digits, input.dropWhile Char.isDigit)

/-- A whole part without leading zeros. -/
def whole? (input : List Char) : Option (List Char × List Char) :=
  match digits? input with
  | some ('0' :: _ :: _, _) => none
  | found => found

def fraction? (input : List Char) : Option (List Char × List Char) :=
  match input with
  | '.' :: rest => (digits? rest).map fun (digits, after) => ('.' :: digits, after)
  | _ => some ([], input)

def exponent? (input : List Char) : Option (List Char × List Char) :=
  let signed := fun (mark : List Char) (rest : List Char) =>
    (digits? rest).map fun (digits, after) => (mark ++ digits, after)
  match input with
  | e :: sign :: rest =>
    if e = 'e' || e = 'E' then
      if sign = '+' || sign = '-' then signed [e, sign] rest else signed [e] (sign :: rest)
    else some ([], input)
  | [e] => if e = 'e' || e = 'E' then none else some ([], input)
  | [] => some ([], input)

def number? (input : List Char) : Option (List Char × List Char) := do
  let (sign, rest) := match input with
    | '-' :: rest => (['-'], rest)
    | _ => ([], input)
  let (whole, rest) ← whole? rest
  let (fraction, rest) ← fraction? rest
  let (exponent, rest) ← exponent? rest
  pure (sign ++ whole ++ fraction ++ exponent, rest)

/-- What has to come next. -/
inductive Goal where
  | value
  /-- Items after the first, or the end of an array. -/
  | items (done : List Json)
  /-- Members after the first, or the end of an object. -/
  | members (done : List (List Char × Json))

/-- Read towards a goal. Every step uses up input, so that `fuel` beyond its length is enough. -/
def read : (fuel : Nat) → Goal → List Char → Option (Json × List Char)
  | 0, _, _ => none
  | fuel + 1, .value, input =>
    match skipSpace input with
    | 'n' :: 'u' :: 'l' :: 'l' :: rest => some (.null, rest)
    | 't' :: 'r' :: 'u' :: 'e' :: rest => some (.bool true, rest)
    | 'f' :: 'a' :: 'l' :: 's' :: 'e' :: rest => some (.bool false, rest)
    | '"' :: rest => (textBody? rest).map fun (raw, after) => (.text raw, after)
    | '[' :: rest =>
      match skipSpace rest with
      | ']' :: after => some (.array [], after)
      | inner => do
        let (first, after) ← read fuel .value inner
        read fuel (.items [first]) after
    | '\x7b' :: rest =>
      match skipSpace rest with
      | '\x7d' :: after => some (.object [], after)
      | '"' :: inner => do
        let (key, after) ← textBody? inner
        let after ← colon? after
        let (first, after) ← read fuel .value after
        read fuel (.members [(key, first)]) after
      | _ => none
    | other => (number? other).map fun (literal, after) => (.number literal, after)
  | fuel + 1, .items done, input =>
    match skipSpace input with
    | ']' :: after => some (.array done.reverse, after)
    | ',' :: rest => do
      let (next, after) ← read fuel .value rest
      read fuel (.items (next :: done)) after
    | _ => none
  | fuel + 1, .members done, input =>
    match skipSpace input with
    | '\x7d' :: after => some (.object done.reverse, after)
    | ',' :: rest =>
      match skipSpace rest with
      | '"' :: inner => do
        let (key, after) ← textBody? inner
        let after ← colon? after
        let (next, after) ← read fuel .value after
        read fuel (.members ((key, next) :: done)) after
      | _ => none
    | _ => none
where
  colon? (input : List Char) : Option (List Char) :=
    match skipSpace input with
    | ':' :: rest => some rest
    | _ => none

/-- A single value with nothing but white space around it. -/
def parse? (input : String) : Option Json := do
  let (value, rest) ← read (input.length + 1) .value input.toList
  if skipSpace rest = [] then some value else none

def escapeChar (c : Char) : List Char :=
  if c = '"' then ['\\', '"']
  else if c = '\\' then ['\\', '\\']
  else if c = '\n' then ['\\', 'n']
  else if c = '\r' then ['\\', 'r']
  else if c = '\t' then ['\\', 't']
  else if c.toNat = 8 then ['\\', 'b']
  else if c.toNat = 12 then ['\\', 'f']
  else if c.toNat < 32 then
    ['\\', 'u', '0', '0', Nat.digitChar (c.toNat / 16), Nat.digitChar (c.toNat % 16)]
  else [c]

def ofText (value : String) : Json := .text (value.toList.flatMap escapeChar)

def ofNat (value : Nat) : Json := .number (Nat.toDigits 10 value)

def ofOption {α : Type} (encode : α → Json) : Option α → Json
  | none => .null
  | some value => encode value

def newline (depth : Nat) : List Char := '\n' :: List.replicate (2 * depth) ' '

def quote (raw : List Char) : List Char := '"' :: raw ++ ['"']

mutual

/-- Text over several lines, two spaces deeper at every level. -/
def pretty (depth : Nat) : Json → List Char
  | .null => "null".toList
  | .bool value => (if value then "true" else "false").toList
  | .number literal => literal
  | .text raw => quote raw
  | .array [] => ['[', ']']
  | .array (first :: rest) =>
    '[' :: newline (depth + 1) ++ pretty (depth + 1) first ++ prettyItems (depth + 1) rest
      ++ newline depth ++ [']']
  | .object [] => ['\x7b', '\x7d']
  | .object ((key, first) :: rest) =>
    '\x7b' :: newline (depth + 1) ++ quote key ++ ':' :: ' ' :: pretty (depth + 1) first
      ++ prettyMembers (depth + 1) rest ++ newline depth ++ ['\x7d']

def prettyItems (depth : Nat) : List Json → List Char
  | [] => []
  | next :: rest => ',' :: newline depth ++ pretty depth next ++ prettyItems depth rest

def prettyMembers (depth : Nat) : List (List Char × Json) → List Char
  | [] => []
  | (key, next) :: rest =>
    ',' :: newline depth ++ quote key ++ ':' :: ' ' :: pretty depth next ++ prettyMembers depth rest

end

end Json

end Undelete
