import MpesaMcp.Python.Datetime

/-!
# `datetime.isoformat` of an aware UTC time

The calendar date of a point in time, counted as `date.fromordinal` counts it, and its text.
-/

set_option autoImplicit false

namespace Python

/-- The days of the months before a month of a common year. -/
def daysBeforeMonth : List Nat := [0, 0, 31, 59, 90, 120, 151, 181, 212, 243, 273, 304, 334]

/-- The days of a month of a common year. -/
def daysInMonth : List Nat := [0, 31, 28, 31, 30, 31, 30, 31, 31, 30, 31, 30, 31]

/-- A year, a month and a day. -/
structure CalendarDate where
  year : Nat
  month : Nat
  day : Nat
deriving DecidableEq, Repr

/-- The month and the day with a number of days of the year before them. -/
def CalendarDate.inYear (year : Nat) (leap : Bool) (n : Nat) : CalendarDate :=
  let month := (n + 50) / 32
  let leapDay := if leap then 1 else 0
  let preceding := daysBeforeMonth.getD month 0 + if 2 < month then leapDay else 0
  -- the estimate of the month is at most one too large
  if n < preceding then
    let month := month - 1
    let preceding := preceding - (daysInMonth.getD month 0 + if month = 2 then leapDay else 0)
    ⟨year, month, n - preceding + 1⟩
  else ⟨year, month, n - preceding + 1⟩

/-- `date.fromordinal(n + 1)`: the date with `n` days before it, from the first of January of year 1. -/
def CalendarDate.fromDays (n : Nat) : CalendarDate :=
  let n400 := n / 146097
  let n := n % 146097
  let n100 := n / 36524
  let n := n % 36524
  let n4 := n / 1461
  let n := n % 1461
  let n1 := n / 365
  let n := n % 365
  let year := n400 * 400 + 1 + n100 * 100 + n4 * 4 + n1
  -- the last day of a leap year, or of a period of four hundred years
  if n1 = 4 ∨ n100 = 4 then ⟨year - 1, 12, 31⟩
  else .inYear year (decide (n1 = 3 ∧ (n4 ≠ 24 ∨ n100 = 3))) n

/-- A number with at least this many digits. -/
def zeroFill (width n : Nat) : String :=
  let digits := Nat.toDigits 10 n
  String.ofList (List.replicate (width - digits.length) '0' ++ digits)

namespace Datetime

/-- The days from the first of January of year 1 to the epoch. -/
def epochDays : Nat := 719162

/-- The calendar date. -/
def calendarDate (t : Datetime) : CalendarDate :=
  .fromDays (t.date + epochDays).toNat

/-- The microseconds since midnight. -/
def timeOfDay (t : Datetime) : Nat := (t.1 % 86400000000).toNat

/-- `t.isoformat()`. -/
def isoformat (t : Datetime) : String :=
  let date := t.calendarDate
  let seconds := t.timeOfDay / 1000000
  let microseconds := t.timeOfDay % 1000000
  zeroFill 4 date.year ++ "-" ++ zeroFill 2 date.month ++ "-" ++ zeroFill 2 date.day ++ "T" ++
    zeroFill 2 (seconds / 3600) ++ ":" ++ zeroFill 2 (seconds / 60 % 60) ++ ":" ++
    zeroFill 2 (seconds % 60) ++
    (if microseconds = 0 then "" else "." ++ zeroFill 6 microseconds) ++ "+00:00"

end Datetime

end Python
