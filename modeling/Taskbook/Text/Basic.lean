/-
Texts as lists of characters, the decimal writing of numbers, and the joining of lines. `fixed`
writes a number in a given count of digits and `digits` in as many as it needs.
-/
namespace Taskbook

/-- A text is the list of its characters. -/
abbrev Text := List Char

namespace Text

/-! ## Numbers -/

/-- The character of a digit below ten. -/
def digit (n : Nat) : Char := Char.ofNat (48 + n)

/-- The last `width` decimal digits of `n`, with leading zeros. -/
def fixed : (width : Nat) → (n : Nat) → Text
  | 0, _ => []
  | width + 1, n => fixed width (n / 10) ++ [digit (n % 10)]

@[simp] theorem length_fixed (width n : Nat) : (fixed width n).length = width := by
  induction width generalizing n with
  | zero => rfl
  | succ w ih => simp [fixed, ih]

/-- The decimal digits of `n`, without leading zeros. -/
def digits (n : Nat) : Text :=
  if n < 10 then [digit n] else digits (n / 10) ++ [digit (n % 10)]

/-- A whole number, with a sign when it is negative. -/
def integer (i : Int) : Text :=
  if i < 0 then '-' :: digits i.natAbs else digits i.natAbs

/-- `t`, with blanks in front up to `width` characters. -/
def alignRight (width : Nat) (t : Text) : Text :=
  List.replicate (width - t.length) ' ' ++ t

/-- The two hexadecimal digits of a number below 256, and in general the last `width` of `n`. -/
def hex : (width : Nat) → (n : Nat) → Text
  | 0, _ => []
  | width + 1, n =>
    hex width (n / 16) ++ [if n % 16 < 10 then digit (n % 16) else Char.ofNat (87 + n % 16)]

/-! ## Putting together -/

/-- The lines one under the other, with a line feed between two of them. -/
def joinLines (lines : List Text) : Text := List.intercalate ['\n'] lines

/-- What `f` writes for a value, and nothing where there is none. -/
def ofOption {α : Type} (f : α → Text) : Option α → Text
  | none => []
  | some a => f a

/-- Two texts with one blank between them. -/
def spaced (a b : Text) : Text := a ++ ' ' :: b

end Text

end Taskbook
