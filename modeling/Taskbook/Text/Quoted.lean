/-
Quoted texts for messages: between single quotes, or between double quotes when the text holds
single quotes and no double ones. What cannot be shown is written by its code point.
-/
import Taskbook.Text.Printable

namespace Taskbook.Text

/-- The quote around a text. -/
def quoteOf (t : Text) : Char := if t.contains '\'' && !t.contains '"' then '"' else '\''

/-- One character inside quotes `q`. -/
def escape (q c : Char) : Text :=
  if c == q || c == '\\' then ['\\', c]
  else if c == '\t' then ['\\', 't']
  else if c == '\n' then ['\\', 'n']
  else if c == '\r' then ['\\', 'r']
  else if isPrintable c then [c]
  else if c.toNat < 0x100 then '\\' :: 'x' :: hex 2 c.toNat
  else if c.toNat < 0x10000 then '\\' :: 'u' :: hex 4 c.toNat
  else '\\' :: 'U' :: hex 8 c.toNat

/-- A text in quotes. -/
def quoted (t : Text) : Text := quoteOf t :: t.flatMap (escape (quoteOf t)) ++ [quoteOf t]

end Taskbook.Text
