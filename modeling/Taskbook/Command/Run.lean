/-
The running of requests. A command writes lines for its user; a failure that can be told in words
ends it with a line of its own, and any other failure leaves the command where it arises.
-/
import Taskbook.Command.Request
import Taskbook.Session

namespace Taskbook.Command

open Session

/-! ## Actions -/

/-- The line of a task in a listing, under its number. -/
def taskLine [Atlas] (number : Nat) (t : Task) (style : TimeStyle) : Except Calendar.Fault Text := do
  let due ← match t.due with
    | none => pure []
    | some due => (style.write due).map fun d => "  (due ".toList ++ d ++ [')']
  return Text.alignRight 3 (Text.digits number) ++ ". ".toList ++ t.name ++ due

/-- Shows a task and its subtasks. -/
def showTask [Atlas] (showDone : Bool) (style : TimeStyle) (number : Nat) (t : Task) :
    Session Unit := do
  let line ← settle ((taskLine number t style).mapError .calendar)
  say line
  (t.subtasks.filter fun st => showDone || !st.complete).forM fun st =>
    say ("       ".toList ++ Text.spaced (Subtask.mark st.complete) st.name)

/-- Shows a list under its title. -/
def showList [Atlas] (symbols : Symbols) (showDone : Bool) (style : TimeStyle)
    (l : TaskList) : Session Unit := do
  say (Text.spaced symbols.title l.title)
  if l.tasks.isEmpty then say "  (no tasks)".toList
  (l.tasks.zipIdx 1).forM fun (t, number) => showTask showDone style number t

/-- What a document holds, in numbers. -/
def counts (d : Document) : Text :=
  "OK: ".toList ++ Text.digits d.length ++ " list(s), ".toList ++
    Text.digits (Document.tasks d).length ++ " task(s), ".toList ++
    Text.digits ((Document.tasks d).flatMap fun t => t.subtasks).length ++ " subtask(s)".toList

/-- The path that an option gives. -/
def pathOf : Option Text → Session Text
  | some path => pure path
  | none => throw .noPath

/-- Converts, and says so. Without a path to write to, all is done up to the writing. -/
def performConvert [Atlas] (source : Text) (target : Option Text) (settings : Settings) :
    Session Unit :=
  match target with
  | some target => do
    let d ← convert source target settings
    say ("Converted ".toList ++ Text.digits d.length ++ " list(s): ".toList ++ source ++
      " -> ".toList ++ target)
  | none => do
    let d ← readDocument source settings
    let _ ← render d settings
    throw .noPath

/-- Does what a command is for. -/
def perform [Atlas] (o : Options) : Session Unit := do
  let source ← pathOf o.input
  match o.action with
  | .convert => performConvert source o.output o.settings
  | .check => do
    let d ← readDocument source o.settings
    say (counts d)
  | .list showDone => do
    let d ← readDocument source o.settings
    let z ← zoneOf o.settings.zone
    d.forM (showList o.settings.symbols showDone (.of o.localTimes z))

/-! ## Reports -/

/-- The lines that an event makes in the log. -/
def logLines : Event → Text
  | .read n path =>
    "DEBUG taskmd.storage: read ".toList ++ Text.digits n ++ " characters from ".toList ++
      path ++ ['\n']
  | .parsed lists tasks =>
    "DEBUG taskmd.grammar: parsed ".toList ++ Text.digits lists ++ " list(s), ".toList ++
      Text.digits tasks ++ " task(s)\n".toList
  | .stopped failure =>
    "DEBUG taskmd.grammar: fatal error while parsing: ".toList ++ failure.message ++ ['\n']
  | .wrote n path =>
    "DEBUG taskmd.storage: wrote ".toList ++ Text.digits n ++ " characters to ".toList ++
      path ++ ['\n']
  | .converted source target =>
    "INFO taskmd.storage: converted ".toList ++ source ++ " -> ".toList ++ target ++ ['\n']
  | .failed command =>
    "DEBUG taskmd.cli: command ".toList ++ command ++ " failed\n<traceback>\n".toList

/-- What a command line comes to: its exit status, what it writes on its two outputs, and the
failure that left it, if one did. -/
structure Report where
  exit : Nat := 0
  out : Text := []
  err : Text := []
  escaped : Option Failure := none
  deriving DecidableEq, Repr

namespace Report

/-- The report of a command that has run. -/
def of (o : Options) (result : Except Failure Unit) (w : World) : Report :=
  let log := fun events => if o.verbose then List.flatMap logLines events else []
  match result with
  | .ok () => { out := w.shown, err := log w.log }
  | .error failure =>
    if failure.isReported then
      { exit := 1, out := w.shown,
        err := log (w.log ++ [.failed o.action.name]) ++ "error: ".toList ++ failure.message ++
          ['\n'] }
    else { exit := 1, out := w.shown, err := log w.log, escaped := some failure }

end Report

/-- Runs a request on files in a working directory. -/
def Request.execute [Atlas] (r : Request) (files : FileSystem) (cwd : Path) :
    Report × FileSystem :=
  match r with
  | help page => ({ out := page.text }, files)
  | refused page refusal =>
    ({ exit := 2,
       err := page.usage ++ page.program ++ ": error: ".toList ++ refusal.message ++ ['\n'] },
      files)
  | run o =>
    let (result, w) := (perform o).run { files, cwd }
    (Report.of o result w, w.files)

/-- Runs a command line on files in a working directory. -/
def execute [Atlas] (words : List Text) (files : FileSystem) (cwd : Path) :
    Report × FileSystem :=
  (Request.ofWords words).execute files cwd

end Taskbook.Command
