/-
The extended form of ISO 8601. A due text may use the basic form, a fraction of any length, the
letter Z, or an offset without a colon; `normalize` changes each of these, one after the other, and
leaves alone what it does not know.
-/
import Taskbook.Text.Digit

namespace Taskbook.Due

open Text

/-! ## The letter Z -/

/-- A final Z, in either case, becomes the offset of universal time. -/
def expandZulu : Text → Text
  | [] => []
  | [c] => if c = 'Z' || c = 'z' then ['+', '0', '0', ':', '0', '0'] else [c]
  | c :: rest => c :: expandZulu rest

/-! ## The basic form -/

/-- The first `n` characters and the rest, if the first `n` are digits. -/
def takeDigits? (n : Nat) (t : Text) : Option (Text × Text) :=
  if n ≤ t.length && (t.take n).all isDigit then some (t.take n, t.drop n) else none

/-- The ways to read a time of the basic form behind a date, the longest first: hours, minutes and
seconds, only hours and minutes, or no time. Each comes with its extended form. -/
def basicTimes (t : Text) : List (Text × Text) :=
  let hours : List (Text × Text) :=
    match t with
    | 'T' :: rest =>
      match takeDigits? 2 rest with
      | none => []
      | some (hour, rest) =>
        match takeDigits? 2 rest with
        | none => []
        | some (minute, rest) =>
          let short := ('T' :: hour ++ ':' :: minute, rest)
          match takeDigits? 2 rest with
          | none => [short]
          | some (second, rest) => [('T' :: hour ++ ':' :: minute ++ ':' :: second, rest), short]
    | _ => []
  hours ++ [([], t)]

/-- Nothing stands here that would continue a date or a time. -/
def endsHere : Text → Bool
  | [] => true
  | c :: _ => !(isDigit c || c == ':' || c == '-')

/-- A date of eight digits, and a time behind it, get their separators. -/
def separate (t : Text) : Text :=
  match takeDigits? 8 t with
  | none => t
  | some (date, rest) =>
    match (basicTimes rest).find? fun reading => endsHere reading.2 with
    | none => t
    | some (time, rest) =>
      date.take 4 ++ '-' :: (date.drop 4).take 2 ++ '-' :: date.drop 6 ++ time ++ rest

/-! ## The fraction -/

/-- Exactly six digits: the first six, or all of them with zeros behind. -/
def sixDigits (digits : Text) : Text := (digits ++ List.replicate 6 '0').take 6

/-- The first fraction gets a point and six digits. A fraction is a point or a comma with a digit
behind it. -/
def evenFraction : Text → Text
  | [] => []
  | c :: rest =>
    if (c = '.' || c = ',') && (rest.head?.any isDigit) then
      '.' :: sixDigits (rest.takeWhile isDigit) ++ rest.dropWhile isDigit
    else c :: evenFraction rest

/-! ## The offset -/

/-- An offset of four digits, with or without a colon and with nothing behind it but at most one
line feed, gets its colon. -/
def finalOffset? : Text → Option Text
  | sign :: rest =>
    if sign = '+' || sign = '-' then
      match takeDigits? 2 rest with
      | none => none
      | some (hour, rest) =>
        let rest := match rest with
          | ':' :: rest => rest
          | rest => rest
        match takeDigits? 2 rest with
        | some (minute, []) => some (sign :: hour ++ ':' :: minute)
        | some (minute, ['\n']) => some (sign :: hour ++ ':' :: minute ++ ['\n'])
        | _ => none
    else none
  | [] => none

/-- A final offset gets its colon if it stands behind a digit; `digitBefore` tells whether the
text does. -/
def separateOffset (digitBefore : Bool) : Text → Text
  | [] => []
  | c :: rest =>
    match (if digitBefore then finalOffset? (c :: rest) else none) with
    | some offset => offset
    | none => c :: separateOffset (isDigit c) rest

/-- The extended form of a text, as far as it is one of ISO 8601. -/
def normalize (t : Text) : Text := separateOffset false (evenFraction (separate (expandZulu t)))

end Taskbook.Due
