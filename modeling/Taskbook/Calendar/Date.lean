/-
Dates of the Gregorian calendar, carried back to the year 1. Days are counted from 0, the Monday
that opens the year 1, so that the remainder by seven of a day's number is its day of the week.
-/
namespace Taskbook.Calendar

/-- Why a date or a time of day does not exist. -/
inductive Fault
  | year (year : Int)
  | month
  | day
  | hour
  | minute
  | second
  | micro
  /-- The result of a calculation lies before the year 1 or after the year 9999. -/
  | overflow
  /-- A number is too large to stand for any part of a date or a time. -/
  | number (number : Int)
  deriving DecidableEq, Repr

/-- A year, a month and a day of the month, all counted from one. -/
structure Date where
  year : Nat
  month : Nat
  day : Nat
  deriving DecidableEq, Repr

/-- The last year of the calendar. -/
def lastYear : Nat := 9999

/-- The number of days from the first of the year 1 to the last of the year 9999. -/
def dayCount : Nat := 3652059

/-! ## From a date to its number -/

def isLeap (year : Nat) : Bool := year % 4 == 0 && (year % 100 != 0 || year % 400 == 0)

/-- The lengths of the months of a year, in their order. -/
def monthLengths (leap : Bool) : List Nat :=
  [31, if leap then 29 else 28, 31, 30, 31, 30, 31, 31, 30, 31, 30, 31]

def daysInMonth (year month : Nat) : Nat := (monthLengths (isLeap year)).getD (month - 1) 0

/-- The days of all years before this one. -/
def daysBeforeYear (year : Nat) : Nat :=
  365 * (year - 1) + (year - 1) / 4 - (year - 1) / 100 + (year - 1) / 400

/-- The days of the year before this month. -/
def daysBeforeMonth (year month : Nat) : Nat :=
  ((monthLengths (isLeap year)).take (month - 1)).foldr (· + ·) 0

namespace Date

/-- The number of the day. -/
def dayNumber (d : Date) : Nat :=
  daysBeforeYear d.year + daysBeforeMonth d.year d.month + (d.day - 1)

/-- The first part of a date that is out of its range, if there is one. -/
def fault? (d : Date) : Option Fault :=
  if d.year < 1 || lastYear < d.year then some (.year d.year)
  else if d.month < 1 || 12 < d.month then some .month
  else if d.day < 1 || daysInMonth d.year d.month < d.day then some .day
  else none

/-- The number of a day that exists. -/
def dayNumber? (d : Date) : Option Nat := if d.fault? = none then some d.dayNumber else none

end Date

/-! ## From a number to its date -/

/-- The year of a day, and how many days of that year go before it. A cycle of 400 years has
146097 days; in it, all centuries but the last have 36524, and in those all years but every
fourth have 365. -/
def yearOfDay (n : Nat) : Nat × Nat :=
  let inCycle := n % 146097
  let century := min (inCycle / 36524) 3
  let inCentury := inCycle - century * 36524
  let inFour := inCentury % 1461
  let year := min (inFour / 365) 3
  (400 * (n / 146097) + 100 * century + 4 * (inCentury / 1461) + year + 1, inFour - year * 365)

/-- The month and the day of the month, `left` days behind the first of month `month`. -/
def monthOfDay : (lengths : List Nat) → (month left : Nat) → Nat × Nat
  | [], month, left => (month, left + 1)
  | length :: lengths, month, left =>
    if left < length then (month, left + 1) else monthOfDay lengths (month + 1) (left - length)

namespace Date

/-- The date of a day. -/
def ofDay (n : Nat) : Date :=
  let (year, left) := yearOfDay n
  let (month, day) := monthOfDay (monthLengths (isLeap year)) 1 left
  ⟨year, month, day⟩

end Date

/-! ## Weeks -/

/-- The day of the week, with Monday as 0. -/
def weekday (n : Nat) : Nat := n % 7

/-- The first day on or after day `n` that is a Sunday. -/
def sundayFrom (n : Nat) : Nat := n + (6 - weekday n)

/-- A year has 53 weeks if it begins on a Thursday, or on a Wednesday and is a leap year. -/
def weeksInYear (year : Nat) : Nat :=
  let first := weekday (daysBeforeYear year)
  if first == 3 || (first == 2 && isLeap year) then 53 else 52

/-- The day of a week date: the first week of a year is the one with its first Thursday. -/
def dayOfWeekDate? (year week day : Nat) : Option Nat :=
  if year < 1 || lastYear < year || week < 1 || weeksInYear year < week || day < 1 || 7 < day then
    none
  else
    let first := daysBeforeYear year
    let monday := first - weekday first + (if 3 < weekday first then 7 else 0)
    let n := monday + 7 * (week - 1) + (day - 1)
    if n < dayCount then some n else none

end Taskbook.Calendar
