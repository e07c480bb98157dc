/-
Zones. There are the places that an atlas knows by their names, universal time, shifts given in
numbers, and the zone of the system, which keeps universal time but is told apart from it.
-/
import Taskbook.Zone.Atlas

namespace Taskbook

/-- A zone, in which a wall time denotes an instant. -/
inductive Zone
  /-- Universal time. -/
  | utc
  /-- A shift that was written beside a single time. -/
  | written (shift : Shift)
  /-- A shift that was chosen as the zone to read and to show times in. -/
  | chosen (shift : Shift)
  /-- The place of this name, with the rule that the atlas has for it. -/
  | place (name : Text)
  /-- The zone of the system. -/
  | system
  deriving DecidableEq, Repr

namespace Zone

/-- Both are one zone, so that a time of the first is already a time of the second. The shifts
written beside two times do not make their zones one, nor does the system's zone equal another;
two names of one place are different zones. -/
def isSame : Zone → Zone → Bool
  | utc, utc => true
  | chosen s, chosen s' => s == s'
  | place n, place n' => n == n'
  | _, _ => false

/-- The zone of a shift written beside a time. No shift is universal time. -/
def ofWritten (s : Shift) : Zone := if s = Shift.zero then utc else written s

/-- The zone of a shift chosen for all times. No shift is universal time. -/
def ofChosen (s : Shift) : Zone := if s = Shift.zero then utc else chosen s

variable [Atlas]

/-- The shift in force at an instant. -/
def shiftAt : Zone → Int → Shift
  | utc, _ | system, _ => Shift.zero
  | written s, _ | chosen s, _ => s
  | place name, instant => (Atlas.rule name).shiftAt instant

/-- The shift that a wall time is read with. -/
def shiftOfWall : Zone → Int → Bool → Shift
  | utc, _, _ | system, _, _ => Shift.zero
  | written s, _, _ | chosen s, _, _ => s
  | place name, wall, later => (Atlas.rule name).shiftOfWall wall later

/-- The zone for a configured name: without a name, or with an empty one, the system's; otherwise
the place of that name, if the atlas has it. -/
def named? : Option Text → Option Zone
  | none | some [] => some system
  | some name => (Atlas.rule? name).map fun _ => place name

end Zone

end Taskbook
