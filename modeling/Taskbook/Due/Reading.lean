/-
The reading of due texts. White space at the ends does not count. ISO 8601 is tried first, in its
extended form, and the everyday forms after it; a floating moment is placed in the zone.
-/
import Taskbook.Due.Normal
import Taskbook.Due.Iso
import Taskbook.Due.Pattern

namespace Taskbook.Due

open Text

/-- The moment that a text writes, before it is placed in a zone. -/
def written? (t : Text) : Option Moment :=
  let t := strip t
  if t = [] then none else (Iso.read? (normalize t)).orElse fun _ => Form.readAny? t

/-- The moment of a due text, if it writes one. -/
def read (t : Text) (z : Zone) : Except Calendar.Fault (Option Moment) :=
  match written? t with
  | none => .ok none
  | some m => (m.placeIn z).map some

end Taskbook.Due
