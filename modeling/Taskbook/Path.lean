/-
Paths: the names on the way from the root of a tree of directories, and how a user writes them. A
written path starts at the root or at the working directory; `lexical` takes its dots out without a
look at the tree, so it need not name the same place as the written path does. The lengths of names
and of written paths are bounded, in octets.
-/
import Taskbook.Text.Utf8

namespace Taskbook

/-- The names on the way from the root to a place in the tree. -/
abbrev Path := List Text

namespace Path

/-- The path in writing. -/
def written (p : Path) : Text := p.flatMap fun name => '/' :: name

/-- The parts of a written path between its slashes. -/
def parts : Text → List Text
  | [] => [[]]
  | c :: rest => if c = '/' then [] :: parts rest else (parts rest).modifyHead (c :: ·)

/-- The names in a written path. Where two slashes meet there is no name between them. -/
def names (t : Text) : List Text := (parts t).filter fun name => !name.isEmpty

/-- A written path that starts at the root. -/
def isAbsolute (t : Text) : Bool := t.head? == some '/'

/-- Where a written path starts. -/
def origin (cwd : Path) (t : Text) : Path := if isAbsolute t then [] else cwd

/-- The name of the place itself. -/
def here : Text := ['.']

/-- The name of the place above. -/
def above : Text := ['.', '.']

/-- A name that means a directory by its place and not by an entry. -/
def isDots (name : Text) : Bool := name == here || name == above

/-- One name further, without a look at the tree. -/
def step (p : Path) (name : Text) : Path :=
  if name = here then p else if name = above then p.dropLast else p ++ [name]

/-- The path from the root that a written path spells. -/
def lexical (cwd : Path) (t : Text) : Path := (names t).foldl step (origin cwd t)

/-- A name of more than 255 octets. -/
def isLongName (name : Text) : Bool := 255 < (Utf8.encode name).length

/-- A written path of more than 4095 octets. -/
def isLong (t : Text) : Bool := 4095 < (Utf8.encode t).length

end Path

end Taskbook
