/-
Shifts between the time of a place and universal time: less than a day, in microseconds, positive
to the east.
-/
import Taskbook.Calendar.WallTime

namespace Taskbook

open Calendar

/-- How far the clocks of a place are ahead of universal time. -/
structure Shift where
  micros : Int
  least : -(microsPerDay : Int) < micros := by decide
  greatest : micros < (microsPerDay : Int) := by decide
  deriving DecidableEq, Repr

namespace Shift

def zero : Shift := { micros := 0 }

/-- The shift of so many microseconds, if it is less than a day. -/
def ofMicros? (m : Int) : Option Shift :=
  if h : -(microsPerDay : Int) < m ∧ m < (microsPerDay : Int) then some ⟨m, h.1, h.2⟩ else none

/-- The shift as a sign, hours and minutes, with the seconds and their fraction only where they
are not zero. -/
def isoText (s : Shift) : Text :=
  let c := Clock.ofMicros s.micros.natAbs
  (if s.micros < 0 then '-' else '+') :: Text.fixed 2 c.hour ++ ':' :: Text.fixed 2 c.minute ++
    (if c.second = 0 ∧ c.micro = 0 then []
    else ':' :: Text.fixed 2 c.second ++ WallTime.fractionText c.micro)

end Shift

end Taskbook
