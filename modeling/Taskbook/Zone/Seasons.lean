/-
Rules of one kind: mean local time before the year 1840, then a standard time and in some places a
daylight time for a part of every year. `shiftAt` gives the shift in force at an instant,
`shiftOfWall` the shift that a wall time is read with. Where the wall time of an instant is taken
with the right choice between its two readings, both shifts are the same.
-/
import Taskbook.Zone.Atlas

namespace Taskbook

open Calendar

/-- A yearly change of the clocks: on the first Sunday on or after a day of a month, when the clocks
show `clock`. -/
structure Change where
  month : Nat
  onOrAfter : Nat
  clock : Clock

namespace Change

/-- What the clocks show just before the change, in microseconds since the start of the year 1. -/
def wall (c : Change) (year : Nat) : Int :=
  (sundayFrom (Date.dayNumber ⟨year, c.month, c.onOrAfter⟩) * microsPerDay + c.clock.micros : Nat)

end Change

/-- The part of the year with other clocks than standard time. -/
structure Daylight where
  shift : Shift
  starts : Change
  stops : Change

/-- The times that a place keeps. -/
structure Seasons where
  mean : Shift
  standard : Shift
  daylight : Option Daylight := none

namespace Seasons

/-- The shift at an instant under the yearly changes alone. -/
def yearly (r : Seasons) (instant : Int) : Shift :=
  match r.daylight with
  | none => r.standard
  | some d =>
    let day := ((instant + r.standard.micros) / (microsPerDay : Int)).toNat
    let year := (yearOfDay day).1
    let start := d.starts.wall year - r.standard.micros
    let stop := d.stops.wall year - d.shift.micros
    let summer :=
      if start < stop then start ≤ instant && instant < stop
      else !(stop ≤ instant && instant < start)
    if summer then d.shift else r.standard

/-- The smaller of the two shifts of the yearly changes. -/
def least (r : Seasons) : Shift :=
  match r.daylight with
  | none => r.standard
  | some d => if d.shift.micros < r.standard.micros then d.shift else r.standard

/-- The greater of the two shifts of the yearly changes. -/
def greatest (r : Seasons) : Shift :=
  match r.daylight with
  | none => r.standard
  | some d => if d.shift.micros < r.standard.micros then r.standard else d.shift

/-- The instant at which mean local time ends: the first of the year 1840, in mean local time. -/
def reform (r : Seasons) : Int :=
  (daysBeforeYear 1840 * microsPerDay : Nat) - r.mean.micros

/-- The shift in force at an instant. -/
def shiftAt (r : Seasons) (instant : Int) : Shift :=
  if instant < r.reform then r.mean else r.yearly instant

/-- The shift that a wall time is read with. A wall time that the clocks show twice, or leave out,
has two readings; the second one is taken when `later` is set. The reading with the greater shift
belongs to the earlier instant, so it is the first one of a repeated time and gives the shift from
before the change for one left out. -/
def shiftOfWall (r : Seasons) (wall : Int) (later : Bool) : Shift :=
  let new := r.yearly r.reform
  let ends := r.reform +
    if later then min r.mean.micros new.micros else max r.mean.micros new.micros
  if wall < ends then r.mean
  else r.yearly (wall - (if later then r.least else r.greatest).micros)

/-- These times as a rule. -/
def rule (r : Seasons) : Rule := ⟨r.shiftAt, r.shiftOfWall⟩

@[simp] theorem rule_shiftAt (r : Seasons) : r.rule.shiftAt = r.shiftAt := rfl

@[simp] theorem rule_shiftOfWall (r : Seasons) : r.rule.shiftOfWall = r.shiftOfWall := rfl

end Seasons

end Taskbook
