/-
The reader of ISO 8601. A date is a calendar date or a week date, in the extended or the basic
form; any one character separates it from the time, whose parts may be separated by colons; an
offset of the same form may follow the time.
-/
import Taskbook.Moment
import Taskbook.Text.Digit

namespace Taskbook.Due.Iso

open Text Calendar

/-! ## Numbers -/

/-- The number that a row of the digits 0 to 9 writes. -/
def number? (t : Text) : Option Nat :=
  t.foldl (fun n c => n.bind fun n => (asciiDigit? c).map (10 * n + ·)) (some 0)

/-- The number in the first `n` characters, and the rest. -/
def digits? (n : Nat) (t : Text) : Option (Nat × Text) :=
  if n ≤ t.length then (number? (t.take n)).map (·, t.drop n) else none

/-- This character, and the rest behind it. -/
def mark? (c : Char) (t : Text) : Option Text := if t.head? = some c then some t.tail else none

/-! ## The date -/

/-- A digit stands at this place. -/
def digitAt (t : Text) (i : Nat) : Bool := t[i]?.any isAsciiDigit

/-- Where the date ends and the separator stands. It is told from the length of the text, the
hyphens and the letter W alone, before the date is read. -/
def dateLength? (t : Text) : Option Nat :=
  if t.length < 7 then none
  else if t.length = 7 then some 7
  else if t[4]? = some '-' then
    if t[5]? = some 'W' then
      if t[8]? = some '-' then
        if t.length = 9 then none
        else if digitAt t 10 then some 8
        else some 10
      else some 8
    else some 10
  else if t[4]? = some 'W' then
    let digits := ((t.drop 7).takeWhile isAsciiDigit).length
    if digits < 2 then some (7 + digits) else if digits % 2 = 1 then some 7 else some 8
  else some 8

/-- The day written by a date of `length` characters. -/
def day? (t : Text) (length : Nat) : Option Nat := do
  let (year, rest) ← digits? 4 t
  let dashed := rest.head? = some '-'
  let rest := if dashed then rest.tail else rest
  match rest with
  | 'W' :: rest =>
    let (week, rest) ← digits? 2 rest
    if t.length - rest.length < length then
      let rest ← if dashed then mark? '-' rest else some rest
      let (day, _) ← digits? 1 rest
      dayOfWeekDate? year week day
    else dayOfWeekDate? year week 1
  | rest =>
    let (month, rest) ← digits? 2 rest
    let rest ← if dashed then mark? '-' rest else some rest
    let (day, rest) ← digits? 2 rest
    if t.length - rest.length = length then Date.dayNumber? ⟨year, month, day⟩ else none

/-! ## The time -/

/-- A time as it was read: its numbers, its microseconds, and whether something is left over
behind it. -/
structure Parts where
  numbers : List Nat
  micro : Nat := 0
  leftOver : Bool := false

/-- Whether a character is one. The null character stands for the end of the text. -/
def isLeftOver (c : Char) : Bool := c.toNat != 0

/-- A fraction: at most six digits count, and further digits are passed over. -/
def fraction? (t : Text) : Option Parts := do
  let count := min 6 t.length
  let (value, rest) ← digits? count t
  let rest := rest.dropWhile isAsciiDigit
  return { numbers := [], micro := value * Nat.pow 10 (6 - count), leftOver := rest.head?.any isLeftOver }

/-- Up to `left` numbers of two digits, then a fraction. `colons` tells whether colons separate the
numbers, which the character behind the first of them decides; a single ASCII character at the end
is left over. -/
def parts? : (left : Nat) → (colons : Option Bool) → Text → Option Parts
  | 0, _, t => fraction? t
  | left + 1, colons, t => do
    let (n, rest) ← digits? 2 t
    let colons := colons.getD (rest.head? == some ':')
    let more ← match rest with
      | [] => some { numbers := [] }
      | [c] => if c.toNat < 0x80 then some { numbers := [], leftOver := isLeftOver c } else none
      | c :: rest =>
        if colons && c == ':' then parts? left (some colons) rest
        else if c == '.' || c == ',' then fraction? rest
        else if colons then none
        else parts? left (some colons) (c :: rest)
    return { more with numbers := n :: more.numbers }

/-- The numbers as hours, minutes and seconds, in any range. -/
def Parts.clock (p : Parts) : Clock :=
  ⟨p.numbers.getD 0 0, p.numbers.getD 1 0, p.numbers.getD 2 0, p.micro⟩

/-- A time of day or an offset of hours, minutes, seconds and a fraction. -/
def clock? (t : Text) : Option Parts := parts? 3 none t

/-- The zone that an offset writes. An offset of less than a second is universal time. -/
def zone? (sign : Char) (t : Text) : Option Zone := do
  let parts ← clock? t
  let offset := parts.clock
  if parts.leftOver then none
  else if offset.micros < microsPerSecond then return .utc
  else
    let micros : Int := offset.micros
    let shift ← Shift.ofMicros? (if sign = '-' then -micros else micros)
    return .written shift

/-- The signs that open an offset. -/
def opensOffset (c : Char) : Bool := c == '+' || c == '-' || c == 'Z'

/-- The time of day, and the zone if there is an offset. -/
def timeOfDay? (t : Text) : Option (Clock × Option Zone) := do
  let time := t.takeWhile fun c => !opensOffset c
  let parts ← clock? time
  match t.dropWhile fun c => !opensOffset c with
  | [] => if parts.leftOver then none else return (parts.clock, none)
  | 'Z' :: rest => if rest.head?.any isLeftOver then none else return (parts.clock, some .utc)
  | sign :: rest =>
    let zone ← zone? sign rest
    return (parts.clock, some zone)

/-- The moment that a text of the extended or the basic form writes. -/
def read? (t : Text) : Option Moment := do
  let length ← dateLength? t
  let day ← day? t length
  match t.drop length with
  | [] =>
    let wall ← WallTime.ofDay? day {}
    return { wall }
  | _ :: rest =>
    let (clock, zone) ← timeOfDay? rest
    let wall ← WallTime.ofDay? day clock
    return { wall, zone }

end Taskbook.Due.Iso
