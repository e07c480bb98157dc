/-
The program. It looks at the files that a command line names, runs the command on them, and writes
back the file that the command made.
-/
import Taskbook.Command.Run
import Taskbook.Zone.Place

namespace Taskbook

open Command

/-- The content of a file, if it can be read. -/
def contentOf (path : Text) : IO (Option Octets) := do
  try
    let bytes ← IO.FS.readBinFile (String.ofList path)
    return some bytes.toList
  catch _ => return none

/-- A tree with one more file at a written path, and the directories that the path goes through. -/
def withFile (files : FileSystem) (path : Text) (content : Octets) : FileSystem :=
  let names := Path.names path
  let through := (List.range names.length).foldl (fun (fs : FileSystem) i =>
    fs.insert ((names.take i).foldl Path.step []) .directory) files
  through.insert (names.foldl Path.step []) (.file content)

/-- The tree of those of the files that can be read. -/
def treeOf (paths : List Text) : IO FileSystem :=
  paths.foldlM (fun files path => do
    match ← contentOf path with
    | some content => return withFile files path content
    | none => return files) {}

/-- Writes the file at a path if a command has made or changed it. -/
def writeBack (path : Text) (before after : FileSystem) : IO Unit := do
  match after.read [] path with
  | .error _ => return ()
  | .ok content =>
    if (before.read [] path).toOption ≠ some content then
      let parents := (Path.lexical [] path).dropLast
      let start : Text := if Path.isAbsolute path then ['/'] else ['.', '/']
      IO.FS.createDirAll (String.ofList (start ++ List.intercalate ['/'] parents))
      IO.FS.writeBinFile (String.ofList path) (ByteArray.mk content.toArray)

/-- Runs a request on the files that it names. -/
def runRequest [Atlas] (request : Request) : IO UInt32 := do
  let paths := match request with
    | .run o => [o.input, o.output].filterMap id
    | _ => []
  let before ← treeOf paths
  let (report, after) := request.execute before []
  paths.forM fun path => writeBack path before after
  IO.print (String.ofList report.out)
  IO.eprint (String.ofList report.err)
  match report.escaped with
  | some failure => IO.eprintln (String.ofList failure.message)
  | none => pure ()
  return UInt32.ofNat report.exit

end Taskbook

open scoped Taskbook.Place in
/-- Runs a command line, with the atlas of a few places. -/
def main (args : List String) : IO UInt32 :=
  Taskbook.runRequest (Taskbook.Command.Request.ofWords (args.map String.toList))
