/-
The white space characters, and the text that is left when they are taken off both ends.
-/
import Taskbook.Text.Basic

namespace Taskbook.Text

/-- White space: the blank, the control characters that move or separate, and the spaces and
separators of Unicode. -/
def isBlank (c : Char) : Bool :=
  let n := c.toNat
  (9 ≤ n && n ≤ 13) || (28 ≤ n && n ≤ 32) || n == 0x85 || n == 0xA0 || n == 0x1680 ||
    (0x2000 ≤ n && n ≤ 0x200A) || n == 0x2028 || n == 0x2029 || n == 0x202F || n == 0x205F ||
    n == 0x3000

/-- Every character is white space; the empty text is blank too. -/
def allBlank (t : Text) : Bool := t.all isBlank

/-- The text without the white space at its end. -/
def stripRight (t : Text) : Text := (t.reverse.dropWhile isBlank).reverse

/-- The text without the white space at either end. -/
def strip (t : Text) : Text := stripRight (t.dropWhile isBlank)

end Taskbook.Text
