import Undelete.Number.Text

/-!
Calendar days and the packed dates and times of directory slots.
-/

namespace Undelete

def isLeapYear (year : Nat) : Bool := year % 4 = 0 && (year % 100 ≠ 0 || year % 400 = 0)

def daysInMonth (year month : Nat) : Nat :=
  if month ∈ [4, 6, 9, 11] then 30
  else if month = 2 then (if isLeapYear year then 29 else 28)
  else 31

def isCalendarDay (year month day : Nat) : Bool :=
  1 ≤ month && month ≤ 12 && 1 ≤ day && day ≤ daysInMonth year month

/-- A date and a time of day, to the second. -/
structure Stamp where
  year : Nat
  month : Nat
  day : Nat
  hour : Nat
  minute : Nat
  second : Nat
  deriving Repr, DecidableEq

namespace Stamp

/-- The stamp packed in two 16-bit words, if it names a real day and time. -/
def unpack? (date time : Nat) : Option Stamp :=
  let stamp : Stamp :=
    { year := 1980 + date / 512
      month := date / 32 % 16
      day := date % 32
      hour := time / 2048
      minute := time / 32 % 64
      second := time % 32 * 2 }
  if isCalendarDay stamp.year stamp.month stamp.day && stamp.hour < 24 && stamp.minute < 60
      && stamp.second < 60 then
    some stamp
  else none

def text (separator : String) (stamp : Stamp) : String :=
  Number.decimal 4 stamp.year ++ "-" ++ Number.decimal 2 stamp.month ++ "-"
    ++ Number.decimal 2 stamp.day ++ separator ++ Number.decimal 2 stamp.hour ++ ":"
    ++ Number.decimal 2 stamp.minute ++ ":" ++ Number.decimal 2 stamp.second

end Stamp

end Undelete
