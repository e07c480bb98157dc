/-
Single values in words: as they are shown to a user, and as they are described, with texts in
quotes.
-/
import Taskbook.Text.Quoted

namespace Taskbook

/-- A single value. -/
inductive Scalar
  | truth (b : Bool)
  | number (i : Int)
  | text (t : Text)
  deriving DecidableEq, Repr

namespace Scalar

/-- A truth value in words. -/
def truthText (b : Bool) : Text := if b then "True".toList else "False".toList

/-- The value as it is shown. -/
def shown : Scalar → Text
  | truth b => truthText b
  | number i => Text.integer i
  | text t => t

/-- The value as it is described. -/
def described : Scalar → Text
  | text t => Text.quoted t
  | s => s.shown

/-- An optional value as it is described. -/
def describedOption : Option Scalar → Text
  | none => "ABSENT".toList
  | some s => "Present(value=".toList ++ s.described ++ [')']

end Scalar

end Taskbook
