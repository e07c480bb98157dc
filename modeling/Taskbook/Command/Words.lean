/-
The reading of the words of a command line against a table of options. All words are classified
before any of them is taken, since a word with a leading hyphen may be an option, the value of one,
or neither. Options are taken from the left until a word is found that belongs to none of them.

The conventions are the ones that held up to release 3.11.8 of the reader that sets them. In these
`-i--` leaves the option without a value, the rest of `-vx` is refused as a value, and the value in
`-vo=a` is `=a`; later releases read all three in another way.
-/
import Taskbook.Text.Digit
import Taskbook.Text.Quoted

namespace Taskbook.Command

/-- An option: its spellings, of which the shortest comes first, and whether a value belongs to
it. -/
structure Spec (α : Type) where
  option : α
  spellings : List Text
  takesValue : Bool := false

/-- The options of a command, in their order. -/
abbrev Table (α : Type) := List (Spec α)

/-- Why words are refused. -/
inductive Refusal
  | ambiguous (word : Text) (spellings : List Text)
  | valueMissing (option : Text)
  | valueIgnored (option value : Text)
  | notChoice (word : Text) (choices : List Text)
  | unrecognized (words : List Text)
  deriving DecidableEq, Repr

namespace Refusal

/-- Texts with a comma between two of them. -/
def listed (ts : List Text) : Text := List.intercalate [',', ' '] ts

/-- The refusal in words. -/
def message : Refusal → Text
  | ambiguous word spellings =>
    "ambiguous option: ".toList ++ word ++ " could match ".toList ++ listed spellings
  | valueMissing option => "argument ".toList ++ option ++ ": expected one argument".toList
  | valueIgnored option value =>
    "argument ".toList ++ option ++ ": ignored explicit argument ".toList ++ Text.quoted value
  | notChoice word choices =>
    "argument cmd: invalid choice: ".toList ++ Text.quoted word ++ " (choose from ".toList ++
      listed (choices.map Text.quoted) ++ [')']
  | unrecognized words => "unrecognized arguments: ".toList ++ List.intercalate [' '] words

end Refusal

namespace Spec

/-- The option in messages. -/
def name {α : Type} (s : Spec α) : Text := List.intercalate ['/'] s.spellings

end Spec

namespace Table

variable {α : Type}

/-- Every spelling with its option. -/
def spellings (t : Table α) : List (Text × Spec α) :=
  t.flatMap fun s => s.spellings.map fun spelling => (spelling, s)

/-- The option that is spelled exactly so. -/
def find? (t : Table α) (word : Text) : Option (Spec α) := (spellings t).lookup word

end Table

/-! ## Classifying -/

/-- An option as it was found in a word: how it is spelled in full, and the value in the same word
if there is one. -/
structure Found (α : Type) where
  spec : Spec α
  spelling : Text
  value : Option Text := none

/-- What a word is. -/
inductive Kind (α : Type)
  /-- A word that may be a value. -/
  | plain
  /-- Two hyphens, behind which every word is plain. -/
  | hyphens
  | option (found : Found α)
  /-- A word in the shape of an option, but none of the table's. -/
  | unknown

/-- A word is a negative number, so it may be a value in spite of its hyphen. A line feed behind the
number does not count. -/
def isNegativeNumber (word : Text) : Bool :=
  match word with
  | '-' :: rest =>
    let body := if rest.getLast? = some '\n' then rest.dropLast else rest
    let whole := body.takeWhile Text.isDigit
    match body.dropWhile Text.isDigit with
    | [] => !whole.isEmpty
    | '.' :: fraction => !fraction.isEmpty && fraction.all Text.isDigit
    | _ => false
  | _ => false

/-- The part of a word before its first equals sign, and the value behind it. -/
def splitValue (word : Text) : Text × Option Text :=
  match word.dropWhile (· != '=') with
  | [] => (word, none)
  | _ :: value => (word.takeWhile (· != '='), some value)

/-- The options that a word which is no exact spelling may mean: a long option by the start of its
name, a short one with its value or with further options behind it. -/
def candidates {α : Type} (t : Table α) (word : Text) : List (Found α) :=
  match word with
  | '-' :: '-' :: _ =>
    let (start, value) := splitValue word
    ((Table.spellings t).filter fun s => start.isPrefixOf s.1).map fun s => ⟨s.2, s.1, value⟩
  | _ =>
    ((Table.spellings t).filter fun s => s.1 == word.take 2).map fun s =>
      ⟨s.2, s.1, some (word.drop 2)⟩

/-- What a word is, if two hyphens do not stand before it. -/
def classify {α : Type} (t : Table α) (word : Text) : Except Refusal (Kind α) :=
  if word = ['-', '-'] then .ok .hyphens
  else if word.head? ≠ some '-' then .ok .plain
  else
    match Table.find? t word with
    | some s => .ok (.option ⟨s, word, none⟩)
    | none =>
      if word.length = 1 then .ok .plain
      else
        let (name, value) := splitValue word
        match value, Table.find? t name with
        | some value, some s => .ok (.option ⟨s, name, some value⟩)
        | _, _ =>
          match candidates t word with
          | [found] => .ok (.option found)
          | [] =>
            if isNegativeNumber word || word.contains ' ' then .ok .plain else .ok .unknown
          | several => .error (.ambiguous word (several.map Found.spelling))

/-- What the words are. -/
def classifyAll {α : Type} (t : Table α) : List Text → Except Refusal (List (Text × Kind α))
  | [] => .ok []
  | word :: words => do
    match ← classify t word with
    | .hyphens => return (word, .hyphens) :: words.map fun w => (w, .plain)
    | kind => return (word, kind) :: (← classifyAll t words)

/-! ## Taking options -/

/-- An option with its value. -/
abbrev Given (α : Type) := α × Option Text

/-- The value that stands in the same word as its option. Two hyphens there are no value. -/
def ownValue (t : Text) : Option Text := if t = ['-', '-'] then none else some t

/-- The options in one word, and whether the last of them still needs a value from the next word. A
short option without a value may have other short options behind it. -/
def inWord {α : Type} (t : Table α) (spec : Spec α) (short : Bool) :
    (value : Option Text) → Except Refusal (List (Given α) × Option (Spec α))
  | none => .ok (if spec.takesValue then ([], some spec) else ([(spec.option, none)], none))
  | some value =>
    if spec.takesValue then .ok ([(spec.option, ownValue value)], none)
    else
      match value with
      | [] => .error (.valueIgnored spec.name [])
      | c :: rest =>
        match (if short then Table.find? t ['-', c] else none) with
        | none => .error (.valueIgnored spec.name (c :: rest))
        | some next => do
          let (given, open_) ← inWord t next short (if rest.isEmpty then none else some rest)
          return ((spec.option, none) :: given, open_)
termination_by value => (value.map List.length).getD 0
decreasing_by
  cases rest <;> simp

/-- A spelling with a single hyphen. -/
def isShort (spelling : Text) : Bool := spelling.length == 2

/-- The words that were read: the options in their order, the words that belong to none, and what
stands from the first plain word on. -/
structure Words (α : Type) where
  given : List (Given α) := []
  extra : List Text := []
  rest : List Text := []

/-- What reading words amounts to. -/
inductive Reading (α : Type)
  | words (words : Words α)
  /-- The options before the refusal were given all the same. -/
  | refused (given : List (Given α)) (refusal : Refusal)

namespace Reading

/-- More options in front. -/
def give {α : Type} (given : List (Given α)) : Reading α → Reading α
  | words w => words { w with given := given ++ w.given }
  | refused given' refusal => refused (given ++ given') refusal

/-- One more word that belongs to no option. -/
def spare {α : Type} (word : Text) : Reading α → Reading α
  | words w => words { w with extra := word :: w.extra }
  | refused given refusal => refused given refusal

end Reading

/-- Takes options and their values. With `stops`, the first plain word ends this; otherwise plain
words belong to no option and are passed over. -/
def takeOptions {α : Type} (t : Table α) (stops : Bool) : List (Text × Kind α) → Reading α
  | [] => .words {}
  | (word, .plain) :: more =>
    if stops then .words { rest := word :: more.map Prod.fst }
    else (takeOptions t stops more).spare word
  | (word, .hyphens) :: more =>
    if stops && !more.isEmpty then .words { rest := word :: more.map Prod.fst }
    else (takeOptions t stops more).spare word
  | (word, .unknown) :: more => (takeOptions t stops more).spare word
  | (_, .option found) :: more =>
    match inWord t found.spec (isShort found.spelling) found.value with
    | .error refusal => .refused [] refusal
    | .ok (given, none) => (takeOptions t stops more).give given
    | .ok (given, some spec) =>
      match more with
      | (value, .plain) :: more =>
        (takeOptions t stops more).give (given ++ [(spec.option, some value)])
      | _ => .refused [] (.valueMissing spec.name)

/-- Reads words. -/
def readWords {α : Type} (t : Table α) (stops : Bool) (words : List Text) : Reading α :=
  match classifyAll t words with
  | .error refusal => .refused [] refusal
  | .ok kinds => takeOptions t stops kinds

end Taskbook.Command
