/-
A place in a text. The cursor keeps what it has passed, the last character first, and what lies
ahead; it may also stand beyond the end, where nothing lies ahead. Lines and columns count from
one and are read off the text passed, so what lies ahead cannot change them.
-/
import Taskbook.Text.Break

namespace Taskbook

/-- A place in a text, or `excess` characters beyond its end. -/
structure Cursor where
  behind : Text
  ahead : Text
  excess : Nat := 0
  beyond : ahead = [] ∨ excess = 0 := by simp
  deriving DecidableEq

namespace Cursor

/-- The start of a text. -/
def start (t : Text) : Cursor := { behind := [], ahead := t }

/-- The whole text, wherever the cursor stands in it. -/
def text (c : Cursor) : Text := c.behind.reverse ++ c.ahead

/-- The distance from the start of the text. -/
def offset (c : Cursor) : Nat := c.behind.length + c.excess

/-- Nothing lies ahead. -/
def atEnd (c : Cursor) : Bool := c.ahead.isEmpty

/-- `t` lies directly ahead. Beyond the end not even the empty text does. -/
def startsWith (c : Cursor) (t : Text) : Bool := c.excess == 0 && t.isPrefixOf c.ahead

/-- Moves on by `n` characters, if need be beyond the end. -/
def advance (c : Cursor) (n : Nat) : Cursor where
  behind := (c.ahead.take n).reverse ++ c.behind
  ahead := c.ahead.drop n
  excess := c.excess + (n - c.ahead.length)
  beyond := by
    rcases c.beyond with h | h
    · simp [h]
    · by_cases hn : c.ahead.length ≤ n
      · exact .inl (List.drop_eq_nil_of_le hn)
      · right; omega

/-- The line and the column, counted from one. -/
def location (c : Cursor) : Nat × Nat :=
  let lines := Text.splitLines c.behind.reverse
  (lines.length, (lines.getLastD []).length + 1)

/-- What lies ahead on the current line. -/
def restOfLine (c : Cursor) : Text := Text.firstLine c.ahead

/-- Goes over `passed`, leaving `rest` ahead. -/
def past (c : Cursor) (passed rest : Text) : Cursor :=
  { behind := passed.reverse ++ c.behind, ahead := rest }

/-- How many steps forward are left: the characters ahead, and beyond the end the one step back
to the end. -/
def room (c : Cursor) : Nat := c.ahead.length + min c.excess 1

theorem text_start (t : Text) : (start t).text = t := rfl

theorem offset_start (t : Text) : (start t).offset = 0 := rfl

@[simp] theorem text_advance (c : Cursor) (n : Nat) : (c.advance n).text = c.text := by
  simp [text, advance]

@[simp] theorem offset_advance (c : Cursor) (n : Nat) : (c.advance n).offset = c.offset + n := by
  rcases c.beyond with h | h <;> simp [offset, advance, h] <;> omega

end Cursor

end Taskbook
