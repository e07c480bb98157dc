/-
What a clock and a calendar on the wall show: a date and a time of day to the microsecond, held as
the count of microseconds since the start of the year 1 and bounded by the end of the year 9999.
-/
import Taskbook.Calendar.Date
import Taskbook.Text.Basic

namespace Taskbook.Calendar

def microsPerSecond : Nat := 1000000

def microsPerDay : Nat := 86400 * microsPerSecond

/-- A time of day. -/
structure Clock where
  hour : Nat := 0
  minute : Nat := 0
  second : Nat := 0
  micro : Nat := 0
  deriving DecidableEq, Repr

namespace Clock

/-- The first part of a time that is out of its range, if there is one. -/
def fault? (c : Clock) : Option Fault :=
  if 24 ≤ c.hour then some .hour
  else if 60 ≤ c.minute then some .minute
  else if 60 ≤ c.second then some .second
  else if microsPerSecond ≤ c.micro then some .micro
  else none

/-- The microseconds since midnight. -/
def micros (c : Clock) : Nat :=
  (c.hour * 3600 + c.minute * 60 + c.second) * microsPerSecond + c.micro

/-- The time `m` microseconds after midnight. -/
def ofMicros (m : Nat) : Clock :=
  let s := m / microsPerSecond
  ⟨s / 3600, s / 60 % 60, s % 60, m % microsPerSecond⟩

end Clock

/-- A date and a time of day of the years 1 to 9999. -/
structure WallTime where
  micros : Nat
  bound : micros < dayCount * microsPerDay
  deriving DecidableEq, Repr

namespace WallTime

/-- The wall time so many microseconds after the start of the year 1, if the calendar has it. -/
def ofMicros? (m : Int) : Option WallTime :=
  if h : 0 ≤ m ∧ m.toNat < dayCount * microsPerDay then some ⟨m.toNat, h.2⟩ else none

/-- A day and a time of day that exist. -/
def ofDay? (day : Nat) (clock : Clock) : Option WallTime :=
  if clock.fault? = none then ofMicros? (day * microsPerDay + clock.micros : Nat) else none

/-- A date and a time of day; where one of them does not exist, what is wrong with it. -/
def of (date : Date) (clock : Clock) : Except Fault WallTime :=
  match date.fault?, clock.fault? with
  | some fault, _ => .error fault
  | none, some fault => .error fault
  | none, none =>
    match ofDay? date.dayNumber clock with
    | some wall => .ok wall
    | none => .error .overflow

/-- The natural number, or `limit` in place of a negative one. -/
def natOr (limit : Nat) (n : Int) : Nat := if n < 0 then limit else n.toNat

/-- A number fits a word of 32 bits. -/
def fitsWord (n : Int) : Bool := -0x80000000 ≤ n && n < 0x80000000

/-- A date and a time of day from numbers of any sign. Every part has a limit that is out of its
range, for which a negative number counts. -/
def ofNumbers (year month day hour minute second micro : Int) : Except Fault WallTime :=
  match [year, month, day, hour, minute, second, micro].find? fun n => !fitsWord n with
  | some n => .error (.number n)
  | none =>
    if year < 0 then .error (.year year)
    else
      of ⟨year.toNat, month.toNat, day.toNat⟩
        ⟨natOr 24 hour, natOr 60 minute, natOr 60 second, natOr microsPerSecond micro⟩

def date (w : WallTime) : Date := Date.ofDay (w.micros / microsPerDay)

def clock (w : WallTime) : Clock := Clock.ofMicros (w.micros % microsPerDay)

/-- The fraction of a second in six digits behind a point, left out when it is zero. -/
def fractionText (micro : Nat) : Text := if micro = 0 then [] else '.' :: Text.fixed 6 micro

/-- The wall time in the extended form of ISO 8601. -/
def isoText (w : WallTime) : Text :=
  let d := w.date
  let c := w.clock
  Text.fixed 4 d.year ++ '-' :: Text.fixed 2 d.month ++ '-' :: Text.fixed 2 d.day ++
    'T' :: Text.fixed 2 c.hour ++ ':' :: Text.fixed 2 c.minute ++ ':' :: Text.fixed 2 c.second ++
    fractionText c.micro

end WallTime

namespace Fault

/-- The fault in words. -/
def message : Fault → Text
  | .year n => "year ".toList ++ Text.integer n ++ " is out of range".toList
  | .month => "month must be in 1..12".toList
  | .day => "day is out of range for month".toList
  | .hour => "hour must be in 0..23".toList
  | .minute => "minute must be in 0..59".toList
  | .second => "second must be in 0..59".toList
  | .micro => "microsecond must be in 0..999999".toList
  | .overflow => "date value out of range".toList
  | .number n =>
    if n < -0x8000000000000000 || 0x8000000000000000 ≤ n then
      "Python int too large to convert to C long".toList
    else if n < 0 then "signed integer is less than minimum".toList
    else "signed integer is greater than maximum".toList

end Fault

end Taskbook.Calendar
