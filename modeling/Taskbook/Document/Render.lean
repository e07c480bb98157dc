/-
The writing of documents. Each function writes what the parser of the same part reads. Only dues
can fail to be written, where their time leaves the calendar.
-/
import Taskbook.Document.Basic
import Taskbook.Text.Blank

namespace Taskbook

open Calendar

namespace Subtask

/-- The mark of a subtask in brackets. -/
def mark (complete : Bool) : Text := if complete then ['[', 'x', ']'] else ['[', ' ', ']']

/-- The line of a subtask. -/
def render (st : Subtask) (s : Symbols) : Text :=
  Text.spaced s.subtask (Text.spaced (mark st.complete) st.name)

/-- The lines of a checklist. -/
def renderAll (sts : List Subtask) (s : Symbols) : Text :=
  Text.joinLines (sts.map fun st => st.render s)

end Subtask

namespace Task

/-- The lines of a description, each behind the symbol. -/
def renderDescription (description : Text) (s : Symbols) : Text :=
  Text.joinLines ((Text.splitLines description).map (Text.spaced s.description))

/-- The line of a due. -/
def renderDue [Atlas] (due : Moment) (s : Symbols) (style : TimeStyle) : Except Fault Text :=
  (style.write due).map (Text.spaced s.due)

/-- The line of a name. -/
def renderName (name : Text) (s : Symbols) : Text := Text.spaced s.task name

/-- The lines of a task: its name, then its due, its description and its checklist, each of them
only if there is something to write. -/
def render [Atlas] (t : Task) (s : Symbols) (style : TimeStyle) : Except Fault Text := do
  let due ← match t.due with
    | none => pure []
    | some due => renderDue due s style
  let description := Text.ofOption (fun d => renderDescription d s) t.description
  let parts := [renderName t.name s, due, description, Subtask.renderAll t.subtasks s]
  return Text.joinLines (parts.filter fun part => !part.isEmpty)

end Task

namespace TaskList

/-- The title of a list, an empty line, and the tasks. -/
def render [Atlas] (l : TaskList) (s : Symbols) (style : TimeStyle) : Except Fault Text := do
  let tasks ← l.tasks.mapM fun t => t.render s style
  let body := Text.joinLines tasks
  let ending := if Text.allBlank body then [] else ['\n']
  return Text.spaced s.title (l.title ++ '\n' :: '\n' :: body ++ ending)

end TaskList

namespace Document

/-- A document in writing. -/
def render [Atlas] (d : Document) (s : Symbols) (style : TimeStyle) : Except Fault Text := do
  let lists ← List.mapM (fun l => TaskList.render l s style) d
  return Text.joinLines lists

end Document

end Taskbook
