import Undelete.Directory.Stamp
import Undelete.Text.Blank

/-!
Instants in coordinated universal time. Text is read in a lenient form of RFC 3339, in which
fields may be short and have white space in front of them, and written in the strict form with a
fraction of as many digits as it needs, in groups of three.
-/

namespace Undelete

structure Timestamp where
  year : Int
  month : Nat
  day : Nat
  hour : Nat
  minute : Nat
  second : Nat
  nanosecond : Nat
  deriving Repr, DecidableEq

namespace Timestamp

/-- Days from the first of March of year 0, counted in the Gregorian calendar. -/
def dayNumber (year : Int) (month day : Nat) : Int :=
  let y := if month ≤ 2 then year - 1 else year
  let m : Nat := (month + 9) % 12
  let era := y.fdiv 400
  let yearOfEra := y - era * 400
  let dayOfYear : Int := ((153 * m + 2) / 5 + day - 1 : Nat)
  era * 146097 + yearOfEra * 365 + yearOfEra / 4 - yearOfEra / 100 + dayOfYear

/-- The year, month and day with a given number. -/
def ofDayNumber (number : Int) : Int × Nat × Nat :=
  let era := number.fdiv 146097
  let dayOfEra := (number - era * 146097).toNat
  let yearOfEra := (dayOfEra - dayOfEra / 1460 + dayOfEra / 36524 - dayOfEra / 146096) / 365
  let dayOfYear := dayOfEra - (365 * yearOfEra + yearOfEra / 4 - yearOfEra / 100)
  let m := (5 * dayOfYear + 2) / 153
  let day := dayOfYear - (153 * m + 2) / 5 + 1
  let month := if m < 10 then m + 3 else m - 9
  let year : Int := yearOfEra + era * 400
  (if month ≤ 2 then year + 1 else year, month, day)

def minYear : Int := -262143

def maxYear : Int := 262142

def isYear (year : Int) : Bool := minYear ≤ year && year ≤ maxYear

def isDay (year : Int) (month day : Nat) : Bool :=
  isYear year && isCalendarDay (year.fmod 400).toNat month day

/-- The instant at which clocks that are `offset` minutes ahead show a time. -/
def back (local_ : Timestamp) (offset : Int) : Timestamp :=
  let minutes : Int := (local_.hour * 60 + local_.minute : Nat) - offset
  let (year, month, day) :=
    ofDayNumber (dayNumber local_.year local_.month local_.day + minutes.fdiv 1440)
  let rest := (minutes.fmod 1440).toNat
  { local_ with year, month, day, hour := rest / 60, minute := rest % 60 }

/-- The number of the first of January 1970. -/
def unixDay : Int := 719468

/-- The instant so many nanoseconds after the beginning of 1970. -/
def ofUnix (nanoseconds : Int) : Timestamp :=
  let seconds := nanoseconds.fdiv 1000000000
  let (year, month, day) := ofDayNumber (unixDay + seconds.fdiv 86400)
  let rest := (seconds.fmod 86400).toNat
  { year, month, day
    hour := rest / 3600
    minute := rest / 60 % 60
    second := rest % 60
    nanosecond := (nanoseconds.fmod 1000000000).toNat }

def skipBlank (text : List Char) : List Char := text.dropWhile Text.isBlank

/-- A number of one to `width` digits. -/
def digits? (width : Nat) (text : List Char) : Option (Nat × List Char) :=
  let digits := (text.take width).takeWhile Char.isDigit
  if digits = [] then none
  else some (digits.foldl (fun total c => total * 10 + (c.toNat - 48)) 0, text.drop digits.length)

def number? (width : Nat) (text : List Char) : Option (Nat × List Char) :=
  digits? width (skipBlank text)

/-- A year has up to four digits, or any number of them after a sign. -/
def year? (text : List Char) : Option (Int × List Char) :=
  match skipBlank text with
  | '-' :: rest => (digits? rest.length rest).map fun (value, rest) => (-(value : Int), rest)
  | '+' :: rest => (digits? rest.length rest).map fun (value, rest) => ((value : Int), rest)
  | rest => (digits? 4 rest).map fun (value, rest) => ((value : Int), rest)

def symbol? (c : Char) (text : List Char) : Option (List Char) :=
  match skipBlank text with
  | d :: rest => if c = d then some rest else none
  | [] => none

/-- Nine digits of a fraction count; more are passed over. -/
def fraction? (text : List Char) : Option (Nat × List Char) :=
  match text with
  | '.' :: rest => do
    let (value, after) ← digits? 9 rest
    let count := rest.length - after.length
    pure (value * Nat.pow 10 (9 - count), after.dropWhile Char.isDigit)
  | _ => some (0, text)

def twoDigits? (text : List Char) : Option (Nat × List Char) :=
  match text with
  | a :: b :: rest =>
    if a.isDigit && b.isDigit then some ((a.toNat - 48) * 10 + (b.toNat - 48), rest) else none
  | _ => none

/-- The distance from universal time in minutes. -/
def offset? (text : List Char) : Option (Int × List Char) :=
  let lower := (text.take 3).map Char.toLower
  match text with
  | sign :: rest =>
    if lower = ['u', 't', 'c'] then some (0, text.drop 3)
    else if sign = 'Z' || sign = 'z' then some (0, rest)
    else if sign = '+' || sign = '-' || sign = '\u2212' then do
      let (hours, rest) ← twoDigits? rest
      let (minutes, rest) ← twoDigits? (rest.dropWhile fun c => c = ':' || Text.isBlank c)
      if minutes < 60 && hours < 24 then
        let total : Int := (hours * 60 + minutes : Nat)
        pure (if sign = '+' then total else -total, rest)
      else none
    else none
  | [] => none

def parse? (input : String) : Option Timestamp := do
  let (year, text) ← year? input.toList
  let text ← symbol? '-' text
  let (month, text) ← number? 2 text
  let text ← symbol? '-' text
  let (day, text) ← number? 2 text
  let text ← match text with
    | c :: rest => if c = 'T' || c = 't' || c = ' ' then some rest else none
    | [] => none
  let (hour, text) ← number? 2 text
  let text ← symbol? ':' text
  let (minute, text) ← number? 2 text
  let text ← symbol? ':' text
  let (second, text) ← number? 2 text
  let (fraction, text) ← fraction? text
  let (offset, text) ← offset? (skipBlank text)
  if skipBlank text = [] && isDay year month day && hour < 24 && minute < 60 && second ≤ 60 then
    let leap := if second = 60 then 1000000000 else 0
    let time := back ⟨year, month, day, hour, minute, min second 59, leap + fraction⟩ offset
    if isYear time.year then some time else none
  else none

def yearText (year : Int) : String :=
  if 0 ≤ year ∧ year ≤ 9999 then Number.decimal 4 year.toNat
  else (if year < 0 then "-" else "+") ++ Number.decimal 4 year.natAbs

def fractionText (nanosecond : Nat) : String :=
  if nanosecond = 0 then ""
  else if nanosecond % 1000000 = 0 then "." ++ Number.decimal 3 (nanosecond / 1000000)
  else if nanosecond % 1000 = 0 then "." ++ Number.decimal 6 (nanosecond / 1000)
  else "." ++ Number.decimal 9 nanosecond

def text (t : Timestamp) : String :=
  yearText t.year ++ "-" ++ Number.decimal 2 t.month ++ "-" ++ Number.decimal 2 t.day ++ "T"
    ++ Number.decimal 2 t.hour ++ ":" ++ Number.decimal 2 t.minute ++ ":"
    ++ Number.decimal 2 (t.second + t.nanosecond / 1000000000)
    ++ fractionText (t.nanosecond % 1000000000) ++ "Z"

end Timestamp

end Undelete
