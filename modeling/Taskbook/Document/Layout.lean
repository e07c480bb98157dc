/-
The layout of documents: a parser for each kind of line and for what lines make up, and the reading
of whole documents. Every line begins with its symbol and a blank, so each parser sees by the start
of a line whether it applies.
-/
import Taskbook.Document.Basic
import Taskbook.Due.Reading
import Taskbook.Failure
import Taskbook.Parser

namespace Taskbook

open Taskbook.Parser

namespace Layout

/-! ## Lines -/

/-- A symbol and the blank behind it. -/
def symbol (s : Text) : Parser Failure Unit := map (fun _ => ()) (andThen (literal s) (char ' '))

/-- The rest of a line that begins with a symbol. -/
def lineOf (s : Text) : Parser Failure Text := andThen (symbol s) line

/-- The title of a list. -/
def title (s : Symbols) : Parser Failure Text := lineOf s.title

/-- The name of a task. -/
def taskName (s : Symbols) : Parser Failure Text := lineOf s.task

/-- A mark in brackets and a blank: an x for what is complete, a blank for what is not. -/
def mark : Parser Failure Bool :=
  map (fun marks => marks[1]? == some 'x')
    (sequence [char '[', orElse (char 'x') (char ' '), char ']', char ' '])

/-- A line of a checklist. -/
def subtask (s : Symbols) : Parser Failure Subtask :=
  andThen (symbol s.subtask)
    (bind mark fun complete => map (fun name => { complete, name }) line)

/-! ## Tasks -/

/-- The lines of a description as one text, or none if they hold only white space. -/
def joinDescription (lines : List Text) : Option Text :=
  let t := Text.joinLines lines
  if Text.allBlank t then none else some t

/-- The lines of a description, as many as there are. -/
def description (s : Symbols) : Parser Failure (Option Text) :=
  map joinDescription (many (lineOf s.description))

/-- What the text of a due line means; `start` is the place where the line begins. -/
def dueOf (s : Symbols) (z : Zone) (start : Cursor) : Option Text → Parser Failure (Option Moment)
  | none => succeed none
  | some text =>
    match Due.read text z with
    | .error fault => fail (.calendar fault)
    | .ok (some moment) => succeed (some moment)
    | .ok none =>
      fail (.badDue text start.location.1 (start.location.2 + s.due.length + 1 : Nat))

/-- A due line, or nothing. A due line whose text is no date ends the reading. -/
def due (s : Symbols) (z : Zone) : Parser Failure (Option Moment) :=
  bind here fun start => bind (optional (lineOf s.due)) (dueOf s z start)

/-- A task: its name, its due line, its description and its checklist, in this order. -/
def task (s : Symbols) (z : Zone) : Parser Failure Task :=
  bind (taskName s) fun name =>
    bind (due s z) fun due =>
      bind (description s) fun description =>
        map (Task.of name due description) (many (subtask s))

/-! ## Documents -/

/-- A title and the tasks under it. -/
def taskList (s : Symbols) (z : Zone) : Parser Failure TaskList :=
  bind (title s) fun title => map (fun tasks => { title, tasks }) (many (task s z))

/-- One list or more, then nothing but white space. -/
def document (s : Symbols) (z : Zone) : Parser Failure Document :=
  bind (many1 (taskList s z)) fun lists => andThen skipBlanks (andThen endOfText (succeed lists))

/-- As many lists as there are and the white space behind them: the part of a text that a document
can begin with. -/
def opening (s : Symbols) (z : Zone) : Parser Failure Text :=
  andThen (many (taskList s z)) skipBlanks

end Layout

namespace Document

/-- Where a text stops to be a document. -/
def stop (t : Text) (s : Symbols) (z : Zone) : Cursor :=
  match (Layout.opening s z).run (.start t) with
  | .done _ rest => rest
  | _ => .start t

/-- The failure of a text that is no document. -/
def unmatched (t : Text) (s : Symbols) (z : Zone) : Failure :=
  let c := stop t s z
  .unmatched c.location.1 c.location.2 c.restOfLine

/-- Reads a whole document. Floating dues are placed in the zone. -/
def parse (t : Text) (s : Symbols) (z : Zone) : Except Failure Document :=
  match (Layout.document s z).run (.start t) with
  | .done lists _ => .ok lists
  | .failed failure => .error failure
  | .miss => .error (unmatched t s z)

end Document

end Taskbook
