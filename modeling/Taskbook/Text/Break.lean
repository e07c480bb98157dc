/-
Line breaks. A line ends at a carriage return, a line feed, or the two of them in this order;
every other separator is an ordinary character.
-/
import Taskbook.Text.Basic

namespace Taskbook.Text

/-- The two characters that break lines. -/
def isBreak (c : Char) : Bool := c == '\r' || c == '\n'

/-- The lines of a text, without their breaks. The empty text is one empty line. -/
def splitLines : Text → List Text
  | [] => [[]]
  | '\r' :: '\n' :: rest => [] :: splitLines rest
  | c :: rest => if isBreak c then [] :: splitLines rest else (splitLines rest).modifyHead (c :: ·)

/-- The same lines, each break written as one line feed. -/
def unifyBreaks (t : Text) : Text := joinLines (splitLines t)

theorem splitLines_ne_nil (t : Text) : splitLines t ≠ [] := by
  induction t using splitLines.induct with
  | case1 => simp [splitLines]
  | case2 => simp [splitLines]
  | case3 c rest hne hb ih => rw [splitLines.eq_3 _ _ hne, if_pos hb]; simp
  | case4 c rest hne hb ih =>
    rw [splitLines.eq_3 _ _ hne, if_neg hb]
    cases h : splitLines rest with
    | nil => exact absurd h ih
    | cons => simp

/-- The part of a text before its first break. -/
def firstLine (t : Text) : Text := t.takeWhile (fun c => !isBreak c)

/-- What stands behind the first line and the breaks that follow it. -/
def afterFirstLine (t : Text) : Text := (t.dropWhile (fun c => !isBreak c)).dropWhile isBreak

end Taskbook.Text
