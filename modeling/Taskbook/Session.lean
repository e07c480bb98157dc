/-
Sessions: reading and writing documents in files, with a log of what was done and the lines shown
to the user. A step that fails leaves the session as it is at that moment.
-/
import Taskbook.Document.Layout
import Taskbook.Document.Render
import Taskbook.FileSystem

namespace Taskbook

/-- What the log records. -/
inductive Event
  | read (characters : Nat) (path : Text)
  | parsed (lists tasks : Nat)
  /-- The text of a due line ended the reading of a document. -/
  | stopped (failure : Failure)
  | wrote (characters : Nat) (path : Text)
  | converted (source target : Text)
  /-- A command ended with a failure. -/
  | failed (command : Text)
  deriving DecidableEq, Repr

/-- All that a session can see and change. -/
structure World where
  files : FileSystem := {}
  cwd : Path := []
  log : List Event := []
  shown : Text := []

/-- Steps of a session, any of which may fail. -/
abbrev Session := ExceptT Failure (StateM World)

namespace Session

/-- Records an event. -/
def note (e : Event) : Session Unit := modify fun w => { w with log := w.log ++ [e] }

/-- Shows a line to the user. -/
def say (line : Text) : Session Unit :=
  modify fun w => { w with shown := w.shown ++ line ++ ['\n'] }

/-- A result, or the failure in its place. -/
def settle {α : Type} : Except Failure α → Session α
  | .ok value => pure value
  | .error failure => throw failure

/-- The zone of a configured name. -/
def zoneOf [Atlas] (name : Option Text) : Session Zone :=
  match Zone.named? name with
  | some z => pure z
  | none => throw (.unknownZone (name.getD []))

/-! ## Files -/

/-- The content of a file. -/
def readOctets (path : Text) : Session Octets := do
  let w ← get
  match w.files.read w.cwd path with
  | .ok content => pure content
  | .error fault => throw (.path fault path)

/-- A new content of a file. -/
def writeOctets (path : Text) (content : Octets) : Session Unit := do
  let w ← get
  match w.files.write w.cwd path content with
  | .ok files => set { w with files }
  | .error fault => throw (.path fault path)

/-- Makes the directories in which a path lies. -/
def makeParents (path : Text) : Session Unit := do
  let w ← get
  let (files, failure) := w.files.makeParents w.cwd path
  set { w with files }
  match failure with
  | none => pure ()
  | some failure => throw failure

/-! ## Documents -/

/-- Reads a document and records its size, or the due line that ended the reading. -/
def parse (t : Text) (s : Symbols) (z : Zone) : Session Document :=
  match Document.parse t s z with
  | .ok d => do
    note (.parsed d.length (Document.tasks d).length)
    return d
  | .error (.badDue text line column) => do
    note (.stopped (.badDue text line column))
    throw (.badDue text line column)
  | .error failure => throw failure

/-- Reads the document in a file. -/
def readDocument [Atlas] (path : Text) (settings : Settings) : Session Document := do
  let content ← readOctets path
  let t ← settle ((Utf8.decode content).mapError .notText)
  note (.read t.length path)
  let z ← zoneOf settings.zone
  parse t settings.symbols z

/-- A document in writing, under settings. -/
def render [Atlas] (d : Document) (settings : Settings) : Session Text := do
  let z ← zoneOf settings.zone
  settle ((d.render settings.symbols (.of settings.localTimes z)).mapError .calendar)

/-- Writes a document into a file. The text is made first, then the directories, then the file. -/
def writeDocument [Atlas] (path : Text) (d : Document) (settings : Settings) : Session Unit := do
  let t ← render d settings
  makeParents path
  writeOctets path (Utf8.encode t)
  note (.wrote t.length path)

/-- Reads the document in one file and writes it into another. -/
def convert [Atlas] (source target : Text) (settings : Settings) : Session Document := do
  let d ← readDocument source settings
  writeDocument target d settings
  note (.converted source target)
  return d

end Session

end Taskbook
