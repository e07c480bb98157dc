/-
What can go wrong, by cause, and the wording of each cause. A failure is reported to the user of a
command as a single line unless `isReported` says otherwise.
-/
import Taskbook.Calendar.WallTime
import Taskbook.Text.Quoted
import Taskbook.Text.Utf8

namespace Taskbook

/-- Why the file system refuses a path. -/
inductive PathFault
  | missing
  | isDirectory
  | notDirectory
  | exists
  /-- A name in the path, or the whole path, is longer than the file system takes. -/
  | tooLong
  /-- The path holds a null character. -/
  | null
  deriving DecidableEq, Repr

/-- A cause of failure. -/
inductive Failure
  /-- The document does not match; the line and the column where it stops to, and what stands
  there up to the end of the line. -/
  | unmatched (line column : Int) (context : Text)
  /-- A due line holds no date, at a line and a column unless the line is zero. -/
  | badDue (text : Text) (line column : Int)
  /-- No place has this name. -/
  | unknownZone (name : Text)
  /-- A failure with a wording of its own. -/
  | other (message : Text)
  /-- A date or a time does not exist, or a calculation leaves the calendar. -/
  | calendar (fault : Calendar.Fault)
  /-- A shift of so many seconds is a day or more. -/
  | shift (seconds : Int)
  /-- The file system refuses a path. -/
  | path (fault : PathFault) (path : Text)
  /-- A path is needed and none is given. -/
  | noPath
  /-- The content of a file is no text. -/
  | notText (fault : Utf8.Fault)
  deriving DecidableEq, Repr

namespace Failure

/-- A line and a column in words. -/
def place (line column : Int) : Text :=
  "line ".toList ++ Text.integer line ++ ", column ".toList ++ Text.integer column

/-- A duration in days and seconds. -/
def duration (seconds : Int) : Text :=
  "datetime.timedelta(days=".toList ++ Text.integer (seconds / 86400) ++
    (if seconds % 86400 = 0 then [] else ", seconds=".toList ++ Text.integer (seconds % 86400)) ++
    [')']

/-- The failure in words. -/
def message : Failure → Text
  | unmatched line column context =>
    "could not parse document at ".toList ++ place line column ++
      (if context = [] then [] else ": ".toList ++ Text.quoted context)
  | badDue text line column =>
    "invalid due date format: ".toList ++ Text.quoted text ++
      (if line = 0 then [] else " (".toList ++ place line column ++ [')'])
  | unknownZone name => "unknown time zone: ".toList ++ Text.quoted name
  | other message => message
  | calendar fault => fault.message
  | shift s =>
    "offset must be a timedelta strictly between -timedelta(hours=24) and ".toList ++
      "timedelta(hours=24), not ".toList ++ duration s ++ ['.']
  | path .missing p => "[Errno 2] No such file or directory: ".toList ++ Text.quoted p
  | path .exists p => "[Errno 17] File exists: ".toList ++ Text.quoted p
  | path .notDirectory p => "[Errno 20] Not a directory: ".toList ++ Text.quoted p
  | path .isDirectory p => "[Errno 21] Is a directory: ".toList ++ Text.quoted p
  | path .tooLong p => "[Errno 36] File name too long: ".toList ++ Text.quoted p
  | path .null _ => "embedded null byte".toList
  | noPath => "expected str, bytes or os.PathLike object, not list".toList
  | notText fault => fault.message

/-- The failures that a command reports in words. The others end it where they arise. -/
def isReported : Failure → Bool
  | calendar _ | shift _ | notText _ | path .null _ | noPath => false
  | _ => true

end Failure

end Taskbook
