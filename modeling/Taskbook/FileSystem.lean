/-
A tree of directories and files, and what a path written by a user names in it. A written path is
walked one name after the other, and every name but the last has to be a directory.
-/
import Taskbook.Failure
import Taskbook.Path

namespace Taskbook

/-- A place in the tree. -/
inductive Node
  | directory
  | file (content : Octets)
  deriving DecidableEq, Repr

/-- The tree: its places below the root, each with its path. -/
structure FileSystem where
  entries : List (Path × Node) := []
  deriving Repr

namespace FileSystem

/-- What is at a path. The root is always a directory. -/
def node? (fs : FileSystem) (p : Path) : Option Node :=
  if p = [] then some .directory else fs.entries.lookup p

/-- Puts a node at a path, in place of what is there. -/
def insert (fs : FileSystem) (p : Path) (n : Node) : FileSystem :=
  if fs.entries.any fun e => e.1 == p then
    { entries := fs.entries.map fun e => if e.1 == p then (p, n) else e }
  else { entries := fs.entries ++ [(p, n)] }

/-! ## Walking -/

/-- Why a written path is refused before anything is looked up. -/
def refusal? (t : Text) : Option PathFault :=
  if t.any fun c => c.toNat == 0 then some .null
  else if t = [] then some .missing
  else if Path.isLong t then some .tooLong
  else none

/-- The directory reached from a directory by names. -/
def walk (fs : FileSystem) : Path → List Text → Except PathFault Path
  | dir, [] => .ok dir
  | dir, name :: names =>
    if Path.isDots name then walk fs (Path.step dir name) names
    else if Path.isLongName name then .error .tooLong
    else
      match fs.node? (dir ++ [name]) with
      | none => .error .missing
      | some (.file _) => .error .notDirectory
      | some .directory => walk fs (dir ++ [name]) names

/-- What a written path means before its last name is looked up: a directory, or a name in a
directory that may or may not exist; `slash` tells whether a slash follows that name. -/
inductive Target
  | directory
  | entry (parent : Path) (name : Text) (slash : Bool)

/-- The target of a written path. -/
def target (fs : FileSystem) (cwd : Path) (t : Text) : Except PathFault Target :=
  match refusal? t with
  | some fault => .error fault
  | none =>
    let names := Path.names t
    match names.getLast? with
    | none => .ok .directory
    | some last =>
      match fs.walk (Path.origin cwd t) names.dropLast with
      | .error fault => .error fault
      | .ok parent =>
        if Path.isDots last then .ok .directory
        else .ok (.entry parent last (t.getLast? == some '/'))

/-! ## Operations -/

/-- The content of the file at a written path. -/
def read (fs : FileSystem) (cwd : Path) (t : Text) : Except PathFault Octets :=
  match fs.target cwd t with
  | .error fault => .error fault
  | .ok .directory => .error .isDirectory
  | .ok (.entry parent name slash) =>
    match fs.node? (parent ++ [name]) with
    | none => .error (if Path.isLongName name then .tooLong else .missing)
    | some .directory => .error .isDirectory
    | some (.file content) => if slash then .error .notDirectory else .ok content

/-- The tree with a new content of the file at a written path. The file is made if there is none. -/
def write (fs : FileSystem) (cwd : Path) (t : Text) (content : Octets) :
    Except PathFault FileSystem :=
  match fs.target cwd t with
  | .error fault => .error fault
  | .ok .directory => .error .isDirectory
  | .ok (.entry parent name slash) =>
    if slash then .error .isDirectory
    else if Path.isLongName name then .error .tooLong
    else if fs.node? (parent ++ [name]) = some .directory then .error .isDirectory
    else .ok (fs.insert (parent ++ [name]) (.file content))

/-- Makes the directories on the way from directory `dir` by names, as far as they are missing. The
first one that cannot be made ends this; those made before it stay. -/
def makeDirectories (fs : FileSystem) (dir : Path) : List Text → FileSystem × Option Failure
  | [] => (fs, none)
  | name :: names =>
    let p := dir ++ [name]
    match fs.node? p with
    | some .directory => makeDirectories fs p names
    | some (.file _) =>
      match names with
      | [] => (fs, some (.path .exists (Path.written p)))
      | next :: _ =>
        let below := Path.written (p ++ [next])
        (fs, some (.path ((refusal? below).getD .notDirectory) below))
    | none =>
      match refusal? (Path.written p), Path.isLongName name with
      | some fault, _ => (fs, some (.path fault (Path.written p)))
      | none, true => (fs, some (.path .tooLong (Path.written p)))
      | none, false => makeDirectories (fs.insert p .directory) p names

/-- Makes the directories in which the path that is spelled lies. -/
def makeParents (fs : FileSystem) (cwd : Path) (t : Text) : FileSystem × Option Failure :=
  fs.makeDirectories [] (Path.lexical cwd t).dropLast

end FileSystem

end Taskbook
