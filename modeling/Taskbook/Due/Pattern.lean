/-
Due texts in everyday forms: numbers with slashes or hyphens, and days with the name of their
month. A form is a row of items; each item may read a text in several ways, and a text has the form
if the items can read all of it.
-/
import Taskbook.Moment
import Taskbook.Text.Digit
import Taskbook.Text.Blank

namespace Taskbook.Due

open Text Calendar

/-! ## Numbers -/

/-- A class of characters that stand for one place of a number, each with its value. -/
inductive Digit
  /-- The digits from `lo` to `hi`. -/
  | among (lo hi : Nat)
  /-- A digit of any script. -/
  | any
  /-- A blank in place of a leading zero. -/
  | blank
  deriving DecidableEq, Repr

namespace Digit

/-- The value of a character of the class. -/
def value? : Digit → Char → Option Nat
  | among lo hi, c => (asciiDigit? c).filter fun v => lo ≤ v && v ≤ hi
  | any, c => digitValue? c
  | blank, c => if c = ' ' then some 0 else none

/-- Reads a number of these places behind `n`. -/
def read? : List Digit → (n : Nat) → Text → Option (Nat × Text)
  | [], n, t => some (n, t)
  | _ :: _, _, [] => none
  | p :: ps, n, c :: rest => (p.value? c).bind fun v => read? ps (10 * n + v) rest

end Digit

/-! ## Items -/

/-- The two halves of the day. -/
inductive Half
  | am
  | pm
  deriving DecidableEq, Repr

/-- The numbered parts of a date or a time. -/
inductive Part
  | year
  | month
  | day
  /-- The hour of the day, from 0. -/
  | hour
  /-- The hour of a half of the day, from 1 to 12. -/
  | halfHour
  | minute
  | second
  deriving DecidableEq, Repr

/-- An item of a form. -/
inductive Item
  | number (part : Part)
  /-- The name of a month, in full. -/
  | monthName
  /-- The name of a month, in three letters. -/
  | shortName
  | half
  /-- White space, at least one character. -/
  | blanks
  /-- A character that stands for itself. -/
  | mark (c : Char)
  deriving DecidableEq, Repr

/-- The spellings of a number, in the order in which they are tried. -/
def Part.spellings : Part → List (List Digit)
  | year => [[.any, .any, .any, .any]]
  | month | halfHour => [[.among 1 1, .among 0 2], [.among 0 0, .among 1 9], [.among 1 9]]
  | day =>
    [[.among 3 3, .among 0 1], [.among 1 2, .any], [.among 0 0, .among 1 9], [.among 1 9],
      [.blank, .among 1 9]]
  | hour => [[.among 2 2, .among 0 3], [.among 0 1, .any], [.any]]
  | minute => [[.among 0 5, .any], [.any]]
  | second => [[.among 6 6, .among 0 1], [.among 0 5, .any], [.any]]

/-- The names of the months, in their order. -/
def monthNames : List Text :=
  ["january".toList, "february".toList, "march".toList, "april".toList, "may".toList,
    "june".toList, "july".toList, "august".toList, "september".toList, "october".toList,
    "november".toList, "december".toList]

/-- What has been read of a date and a time. -/
structure Stamp where
  date : Date := ⟨1900, 1, 1⟩
  clock : Clock := {}
  half : Option Half := none
  deriving DecidableEq, Repr

namespace Stamp

/-- Sets a numbered part. -/
def set (s : Stamp) : Part → Nat → Stamp
  | .year, n => { s with date.year := n }
  | .month, n => { s with date.month := n }
  | .day, n => { s with date.day := n }
  | .hour, n | .halfHour, n => { s with clock.hour := n }
  | .minute, n => { s with clock.minute := n }
  | .second, n => { s with clock.second := n }

/-- The time of day. In a half of the day the hour 12 is the first one. -/
def timeOfDay (s : Stamp) : Clock :=
  match s.half with
  | none => s.clock
  | some .am => { s.clock with hour := s.clock.hour % 12 }
  | some .pm => { s.clock with hour := s.clock.hour % 12 + 12 }

/-- The floating moment, if the day and the time exist. -/
def moment? (s : Stamp) : Option Moment := do
  let day ← s.date.dayNumber?
  let wall ← WallTime.ofDay? day s.timeOfDay
  return { wall }

end Stamp

/-- Takes a word off the text, in upper or lower case. -/
def takeWord? (word t : Text) : Option Text :=
  if (t.take word.length).map Char.toLower = word then some (t.drop word.length) else none

/-- The readings of a word that stands for a number from 1 on. -/
def nameReadings (names : List Text) (t : Text) : List (Nat × Text) :=
  (names.zipIdx 1).filterMap fun (name, n) => (takeWord? name t).map (n, ·)

namespace Item

/-- The ways to read an item, in the order in which they are tried. White space is read as far as
it goes, then shorter. -/
def readings (item : Item) (s : Stamp) (t : Text) : List (Stamp × Text) :=
  match item with
  | number part =>
    part.spellings.filterMap fun places =>
      (Digit.read? places 0 t).map fun (n, rest) => (s.set part n, rest)
  | monthName => (nameReadings monthNames t).map fun (n, rest) => (s.set .month n, rest)
  | shortName =>
    (nameReadings (monthNames.map (·.take 3)) t).map fun (n, rest) => (s.set .month n, rest)
  | half =>
    ((takeWord? ['a', 'm'] t).map fun rest => ({ s with half := some .am }, rest)).toList ++
      ((takeWord? ['p', 'm'] t).map fun rest => ({ s with half := some .pm }, rest)).toList
  | blanks =>
    (List.range (t.takeWhile isBlank).length).reverse.map fun i => (s, t.drop (i + 1))
  | mark c =>
    match t with
    | x :: rest => if x = c then [(s, rest)] else []
    | [] => []

end Item

/-! ## Forms -/

/-- A form is a row of items. -/
abbrev Form := List Item

namespace Form

/-- All the ways in which the items read the whole text, in the order in which they are tried. -/
def readings : Form → Stamp → Text → List Stamp
  | [], s, [] => [s]
  | [], _, _ :: _ => []
  | item :: items, s, t => (item.readings s t).flatMap fun (s', rest) => readings items s' rest

/-- The moment of a text of this form. Only the first way of reading counts. -/
def read? (f : Form) (t : Text) : Option Moment := (f.readings {} t).head?.bind Stamp.moment?

/-- Three numbers with marks between them. -/
private def dashed (a : Part) (m : Char) (b : Part) (n : Char) (c : Part) : Form :=
  [.number a, .mark m, .number b, .mark n, .number c]

/-- Hours and minutes behind white space. -/
private def shortTime (h : Part) : Form := [.blanks, .number h, .mark ':', .number .minute]

/-- Seconds behind a time. -/
private def seconds : Form := [.mark ':', .number .second]

/-- The half of the day behind a time. -/
private def ofHalf : Form := [.blanks, .half]

/-- The forms, in the order in which they are tried. -/
def all : List Form :=
  [dashed .year '-' .month '-' .day ++ shortTime .hour,
    dashed .year '-' .month '-' .day ++ shortTime .hour ++ seconds,
    dashed .year '/' .month '/' .day,
    dashed .year '/' .month '/' .day ++ shortTime .hour,
    dashed .month '/' .day '/' .year,
    dashed .month '/' .day '/' .year ++ shortTime .hour,
    dashed .month '/' .day '/' .year ++ shortTime .halfHour ++ ofHalf,
    dashed .month '/' .day '/' .year ++ shortTime .halfHour ++ seconds ++ ofHalf,
    [.number .day, .blanks, .monthName, .blanks, .number .year],
    [.number .day, .blanks, .shortName, .blanks, .number .year],
    [.monthName, .blanks, .number .day, .mark ',', .blanks, .number .year],
    [.shortName, .blanks, .number .day, .mark ',', .blanks, .number .year]]

/-- The moment of a text that has one of the forms, under the first one that reads it. -/
def readAny? (t : Text) : Option Moment := all.findSome? fun f => f.read? t

end Form

end Taskbook.Due
