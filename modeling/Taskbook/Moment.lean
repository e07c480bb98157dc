/-
Moments: a wall time, usually with the zone whose clocks show it. A moment of a zone denotes an
instant, and moving it to another zone keeps the instant; a moment without a zone is floating and
is taken to be the system's.
-/
import Taskbook.Zone.Basic

namespace Taskbook

open Calendar

/-- A wall time and its zone. Of a wall time that the clocks of the zone show twice, `later` tells
the second showing. -/
structure Moment where
  wall : WallTime
  later : Bool := false
  zone : Option Zone := none
  deriving DecidableEq, Repr

namespace Moment

variable [Atlas]

/-- The shift of a moment of a zone. -/
def shiftIn (m : Moment) (z : Zone) : Shift := z.shiftOfWall m.wall.micros m.later

/-- The instant of a moment of a zone, in microseconds since the start of the year 1 of universal
time. It may lie outside the calendar. -/
def instantIn (m : Moment) (z : Zone) : Int := m.wall.micros - (m.shiftIn z).micros

/-- The instant of a moment; a floating one is taken to be the system's. -/
def instant (m : Moment) : Int := m.instantIn (m.zone.getD .system)

/-! ## Moving between zones -/

/-- The wall time at which the system places a floating moment. It looks for a change of the clocks
one day back, or one day ahead for a second showing, so that the first day of the calendar, or the
last, is out of its reach. -/
def systemWall (m : Moment) : Except Fault WallTime :=
  if m.later then
    if (dayCount - 1) * microsPerDay ≤ m.wall.micros then .error (.year (lastYear + 1))
    else .ok m.wall
  else if m.wall.micros < microsPerDay then .error (.year 0)
  else .ok m.wall

/-- Floating moments become moments of the zone; the others stay as they are. -/
def placeIn (m : Moment) (z : Zone) : Except Fault Moment :=
  match m.zone, z with
  | some _, _ => .ok m
  | none, .system => m.systemWall.map fun w => { wall := w, zone := some .system }
  | none, z => .ok { m with zone := some z }

/-- What the clocks of a zone show at an instant. -/
def ofInstant (instant : Int) (z : Zone) : Except Fault Moment :=
  let shift := z.shiftAt instant
  match WallTime.ofMicros? instant, WallTime.ofMicros? (instant + shift.micros) with
  | some _, some wall =>
    .ok { wall, later := z.shiftOfWall wall.micros false != shift, zone := some z }
  | _, _ => .error .overflow

/-- The same instant on the clocks of another zone. A moment of that very zone is not moved, so it
stays even where its instant lies outside the calendar. -/
def moveTo (m : Moment) (z : Zone) : Except Fault Moment :=
  match m.zone with
  | none => do
    let wall ← m.systemWall
    ofInstant wall.micros z
  | some own => if own.isSame z then .ok m else ofInstant (m.instantIn own) z

/-! ## Writing -/

/-- The wall time, with the shift of the zone if the moment has one. -/
def isoText (m : Moment) : Text :=
  m.wall.isoText ++ Text.ofOption (fun z => (m.shiftIn z).isoText) m.zone

/-! ## Comparing -/

/-- The wall time has two readings in this zone, being shown twice or left out. -/
def isAmbiguousIn (m : Moment) (z : Zone) : Bool :=
  z.shiftOfWall m.wall.micros false != z.shiftOfWall m.wall.micros true

/-- Two moments of one zone, or two floating ones, are equal if their wall times are. Moments of
different zones are equal if they are the same instant, and unequal whenever one of them has two
readings. A floating moment equals no moment of a zone. -/
def same (a b : Moment) : Bool :=
  match a.zone, b.zone with
  | none, none => a.wall == b.wall
  | some za, some zb =>
    if za.isSame zb then a.wall == b.wall
    else a.instantIn za == b.instantIn zb && !a.isAmbiguousIn za && !b.isAmbiguousIn zb
  | _, _ => false

end Moment

/-- How the dues of a document are written. -/
inductive TimeStyle
  /-- In universal time, marked with a Z. -/
  | universal
  /-- In the time of a zone, with its shift. -/
  | zoned (zone : Zone)
  deriving DecidableEq, Repr

namespace TimeStyle

/-- The style chosen by the setting for local times and the zone. -/
def of (localTimes : Bool) (z : Zone) : TimeStyle := if localTimes then zoned z else universal

/-- A moment in writing. -/
def write [Atlas] : TimeStyle → Moment → Except Fault Text
  | universal, m => (m.moveTo .utc).map fun u => u.wall.isoText ++ ['Z']
  | zoned z, m => (m.moveTo z).map Moment.isoText

end TimeStyle

end Taskbook
