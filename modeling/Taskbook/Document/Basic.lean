/-
Documents: lists of tasks under titles. A task may have a due moment, a description and subtasks.
The breaks of a description are single line feeds in every task that `Task.of` builds. Settings say
how a document is spelled and how its dues are written.
-/
import Taskbook.Moment
import Taskbook.Text.Break

namespace Taskbook

/-- An item of a task's checklist. -/
structure Subtask where
  complete : Bool := false
  name : Text := []
  deriving DecidableEq, Repr

/-- Something to do. -/
structure Task where
  name : Text := []
  due : Option Moment := none
  description : Option Text := none
  subtasks : List Subtask := []
  deriving DecidableEq, Repr

/-- Tasks under a title. -/
structure TaskList where
  title : Text := []
  tasks : List Task := []
  deriving DecidableEq, Repr

/-- A document is a row of lists. -/
abbrev Document := List TaskList

namespace Task

/-- The task with these parts, the breaks of its description unified. -/
def of (name : Text) (due : Option Moment) (description : Option Text) (subtasks : List Subtask) :
    Task :=
  { name, due, description := description.map Text.unifyBreaks, subtasks }

end Task

/-! ## Spelling -/

/-- What the lines of a document begin with; a blank follows each of these. -/
structure Symbols where
  title : Text := ['#', '#']
  task : Text := ['-']
  description : Text := [' ', ' ', ' ', ' ', '>']
  due : Text := [' ', ' ', ' ', ' ', '@']
  subtask : Text := [' ', ' ', ' ', ' ', '*']
  deriving DecidableEq, Repr

/-- How documents are read and written: their symbols, whether dues are written in local time, and
the name of the zone, if one is configured. -/
structure Settings where
  symbols : Symbols := {}
  localTimes : Bool := false
  zone : Option Text := none
  deriving DecidableEq, Repr

/-! ## Comparing -/

/-- Both are absent, or both present and related. -/
def optionsMatch {α : Type} (related : α → α → Bool) : Option α → Option α → Bool
  | none, none => true
  | some a, some b => related a b
  | _, _ => false

/-- Both have the same length, and entries at the same place are related. -/
def listsMatch {α : Type} (related : α → α → Bool) : List α → List α → Bool
  | [], [] => true
  | a :: as, b :: bs => related a b && listsMatch related as bs
  | _, _ => false

namespace Task

/-- Two tasks are the same if all their parts are, dues being compared as moments. -/
def same [Atlas] (a b : Task) : Bool :=
  a.name == b.name && optionsMatch Moment.same a.due b.due && a.description == b.description &&
    a.subtasks == b.subtasks

end Task

namespace TaskList

/-- Two lists are the same if their titles and their tasks are. -/
def same [Atlas] (a b : TaskList) : Bool :=
  a.title == b.title && listsMatch Task.same a.tasks b.tasks

end TaskList

namespace Document

/-- Two documents are the same if their lists are, dues being compared as moments. -/
def same [Atlas] (a b : Document) : Bool := listsMatch TaskList.same a b

/-- All tasks, in their order. -/
def tasks (d : Document) : List Task := d.flatMap TaskList.tasks

end Document

end Taskbook
