/-
Parsers as a language of their own: a parser is built from eleven constructors, and `run` says what
each of them does at a place in a text. A run succeeds with a value and a new place, misses and
passes nothing, or ends in a failure that nothing recovers.
-/
import Taskbook.Cursor
import Taskbook.Text.Blank

namespace Taskbook

/-- How a run ends. -/
inductive Outcome (ε α : Type)
  /-- A value, and the place behind what was read. -/
  | done (value : α) (rest : Cursor)
  /-- The text does not match here. -/
  | miss
  /-- A failure that ends the whole run. -/
  | failed (failure : ε)

namespace Outcome

/-- The outcome with another value. -/
def map {ε α β : Type} (f : α → β) : Outcome ε α → Outcome ε β
  | done value rest => done (f value) rest
  | miss => miss
  | failed failure => failed failure

/-- Goes on from a success. -/
def andThen {ε α β : Type} (o : Outcome ε α) (next : α → Cursor → Outcome ε β) : Outcome ε β :=
  match o with
  | done value rest => next value rest
  | miss => miss
  | failed failure => failed failure

/-- Goes on from a miss. -/
def orElse {ε α : Type} (o : Outcome ε α) (next : Outcome ε α) : Outcome ε α :=
  match o with
  | done value rest => done value rest
  | miss => next
  | failed failure => failed failure

/-- Takes `step` again and again until it misses. A success that leaves as much to do as before
is the last one; its value is kept. -/
def loop {ε α : Type} (step : Cursor → Outcome ε α) (c : Cursor) : Outcome ε (List α) :=
  match step c with
  | miss => done [] c
  | failed failure => failed failure
  | done value rest =>
    if rest.room < c.room then (loop step rest).map (value :: ·) else done [value] rest
termination_by c.room

end Outcome

/-- A parser whose values have type `α` and whose failures have type `ε`. -/
inductive Parser (ε : Type) : Type → Type 1
  /-- One character that the test accepts. -/
  | satisfy (accepts : Char → Bool) : Parser ε Char
  /-- Exactly this text. -/
  | literal (t : Text) : Parser ε Text
  /-- The rest of the line. The breaks behind it are passed over, blank lines included. -/
  | line : Parser ε Text
  /-- Nothing, at the end of the text. -/
  | endOfText : Parser ε Unit
  /-- The place itself. -/
  | here : Parser ε Cursor
  /-- No value but a failure. -/
  | fail {α : Type} (failure : ε) : Parser ε α
  /-- A value, without reading. -/
  | succeed {α : Type} (value : α) : Parser ε α
  /-- One parser, then another that depends on the first one's value. -/
  | bind {α β : Type} (p : Parser ε α) (next : α → Parser ε β) : Parser ε β
  /-- One parser, or another where the first one misses. -/
  | orElse {α : Type} (p q : Parser ε α) : Parser ε α
  /-- The same parser as often as it matches. -/
  | many {α : Type} (p : Parser ε α) : Parser ε (List α)
  /-- A parser that may miss. -/
  | optional {α : Type} (p : Parser ε α) : Parser ε (Option α)

namespace Parser

/-- What a parser does at a place. -/
@[simp]
def run {ε : Type} : {α : Type} → Parser ε α → Cursor → Outcome ε α
  | _, satisfy accepts, c =>
    match c.ahead with
    | [] => .miss
    | x :: rest => if accepts x then .done x (c.past [x] rest) else .miss
  | _, literal t, c =>
    if c.startsWith t then .done t (c.past t (c.ahead.drop t.length)) else .miss
  | _, line, c =>
    let first := Text.firstLine c.ahead
    let breaks := (c.ahead.drop first.length).takeWhile Text.isBreak
    .done first (c.past (first ++ breaks) (Text.afterFirstLine c.ahead))
  | _, endOfText, c => if c.atEnd then .done () c else .miss
  | _, here, c => .done c c
  | _, fail failure, _ => .failed failure
  | _, succeed value, c => .done value c
  | _, bind p next, c => (p.run c).andThen fun value rest => (next value).run rest
  | _, orElse p q, c => (p.run c).orElse (q.run c)
  | _, many p, c => Outcome.loop p.run c
  | _, optional p, c => ((p.run c).map some).orElse (.done none c)

/-! ## Parsers built from these -/

variable {ε α β : Type}

/-- A parser with another value. -/
def map (f : α → β) (p : Parser ε α) : Parser ε β := bind p fun value => succeed (f value)

/-- One parser, then another, whose value counts. -/
def andThen (p : Parser ε α) (q : Parser ε β) : Parser ε β := bind p fun _ => q

/-- Parsers in their order, with the list of their values. -/
def sequence : List (Parser ε α) → Parser ε (List α)
  | [] => succeed []
  | p :: ps => bind p fun value => (sequence ps).map (value :: ·)

/-- The same parser as often as it matches, but at least once. -/
def many1 (p : Parser ε α) : Parser ε (List α) := bind p fun first => (many p).map (first :: ·)

/-- This character. -/
def char (x : Char) : Parser ε Char := satisfy (· == x)

/-- White space, as much as there is. -/
def skipBlanks : Parser ε Text := many (satisfy Text.isBlank)

end Parser

end Taskbook
