/-
The zone database. It is data from elsewhere: for each name that it has, a rule that says what the
clocks do there. Nothing but these rules is known of a place, so whatever depends on the zones is a
function of an atlas.
-/
import Taskbook.Zone.Shift

namespace Taskbook

/-- What the clocks of a place do: the shift in force at an instant, and the shift that a wall time
is read with. A wall time that the clocks show twice, or leave out, has two readings, of which the
flag asks for the second one. Both are counted in microseconds since the start of the year 1. -/
structure Rule where
  shiftAt : (instant : Int) → Shift
  shiftOfWall : (wall : Int) → (later : Bool) → Shift

/-- The rules of the places that have a name. -/
class Atlas where
  rule? : (name : Text) → Option Rule

namespace Atlas

/-- The rule of a name. A name that the atlas does not have is given no shift. -/
def rule [Atlas] (name : Text) : Rule := (rule? name).getD ⟨fun _ => .zero, fun _ _ => .zero⟩

end Atlas

end Taskbook
