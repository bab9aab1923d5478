/-!
# The calendar

Dates of the Gregorian calendar, extended in both directions, with a year zero.  A day is counted
from the first of January 1970.  The days before a year are a sum of four floors, so the year of a
day is found by one division and a correction of at most one.
-/

namespace Courier

/-- A date of the calendar. -/
structure Date where
  year : Int
  month : Nat
  day : Nat
deriving DecidableEq, Repr

namespace Date

/-- Whether a year has 366 days. -/
def isLeapYear (y : Int) : Bool := y % 4 = 0 && (y % 100 ≠ 0 || y % 400 = 0)

/-- Days from the first of January of year one to the first of January of a year. -/
def daysBeforeYear (y : Int) : Int :=
  365 * (y - 1) + (y - 1) / 4 - (y - 1) / 100 + (y - 1) / 400

/-- Days from the first of January of year one to the first of January 1970. -/
def epochDays : Int := 719162

/-- The length of a month. -/
def daysInMonth (leap : Bool) (month : Nat) : Nat :=
  match month with
  | 2 => if leap then 29 else 28
  | 4 | 6 | 9 | 11 => 30
  | _ => 31

/-- Days from the first of January to the first of a month. -/
def daysBeforeMonth (leap : Bool) : Nat → Nat
  | 0 => 0
  | 1 => 0
  | m + 2 => daysBeforeMonth leap (m + 1) + daysInMonth leap (m + 1)

/-- Whether the date exists. -/
def exists_ (d : Date) : Bool :=
  1 ≤ d.month && d.month ≤ 12 && 1 ≤ d.day && d.day ≤ daysInMonth (isLeapYear d.year) d.month

/-- The count of a date, the first of January 1970 being zero. -/
def toDays (d : Date) : Int :=
  daysBeforeYear d.year - epochDays + daysBeforeMonth (isLeapYear d.year) d.month + d.day - 1

/-- The year of a day that is counted from the first of January of year one. -/
def yearOfDay (n : Int) : Int :=
  let guess := n * 400 / 146097 + 1
  if n < daysBeforeYear guess then guess - 1
  else if daysBeforeYear (guess + 1) ≤ n then guess + 1
  else guess

/-- Month and day of a day that is counted from the first of January; `month` is the first month
that comes into question, and the last argument bounds how many do. -/
def monthAndDay (leap : Bool) (month : Nat) (n : Nat) : Nat → Nat × Nat
  | 0 => (month, n + 1)
  | fuel + 1 =>
    if n < daysInMonth leap month then (month, n + 1)
    else monthAndDay leap (month + 1) (n - daysInMonth leap month) fuel

/-- The date with this count. -/
def ofDays (days : Int) : Date :=
  let n := days + epochDays
  let y := yearOfDay n
  let (m, d) := monthAndDay (isLeapYear y) 1 (n - daysBeforeYear y).toNat 11
  ⟨y, m, d⟩

end Date
end Courier
