/-
What a command line asks for: a page of help, a command with its options, or nothing that can be
understood. Options stand before the name of the command; without a name the command is to convert.
-/
import Taskbook.Command.Words
import Taskbook.Document.Basic

namespace Taskbook.Command

/-- What can be done with a document. -/
inductive Action
  /-- Read it and write it into another file. -/
  | convert
  /-- Read it and count what it holds. -/
  | check
  /-- Read it and show its tasks, with the complete subtasks or without. -/
  | list (showDone : Bool)
  deriving DecidableEq, Repr

/-- The name of an action. -/
def Action.name : Action → Text
  | convert => "convert".toList
  | check => "check".toList
  | list _ => "list".toList

/-- A command with all its options. A path is absent where its option was given without a value. -/
structure Options where
  input : Option Text := some "taskell.md".toList
  output : Option Text := some "taskmd.md".toList
  localTimes : Bool := false
  zone : Option Text := none
  verbose : Bool := false
  action : Action := .convert
  deriving DecidableEq, Repr

/-- The settings for reading and writing. -/
def Options.settings (o : Options) : Settings := { localTimes := o.localTimes, zone := o.zone }

/-! ## The options -/

/-- The options before the name of a command. -/
inductive General
  | help
  | input
  | output
  | localTimes
  | zone
  | verbose
  deriving DecidableEq, Repr

/-- The options behind the name of a command. -/
inductive Special
  | help
  | all
  deriving DecidableEq, Repr

/-- The table of the options before the name. -/
def generalTable : Table General :=
  [{ option := .help, spellings := ["-h".toList, "--help".toList] },
    { option := .input, spellings := ["-i".toList, "--input".toList], takesValue := true },
    { option := .output, spellings := ["-o".toList, "--output".toList], takesValue := true },
    { option := .localTimes, spellings := ["--local-times".toList] },
    { option := .zone, spellings := ["--tz".toList], takesValue := true },
    { option := .verbose, spellings := ["-v".toList, "--verbose".toList] }]

/-- The table of the options behind the name. Only a listing has more than help. -/
def specialTable : Action → Table Special
  | .list _ =>
    [{ option := .help, spellings := ["-h".toList, "--help".toList] },
      { option := .all, spellings := ["--all".toList] }]
  | _ => [{ option := .help, spellings := ["-h".toList, "--help".toList] }]

/-- The options with one more of them given. -/
def Options.give (o : Options) : Given General → Options
  | (.input, value) => { o with input := value }
  | (.output, value) => { o with output := value }
  | (.zone, value) => { o with zone := value }
  | (.localTimes, _) => { o with localTimes := true }
  | (.verbose, _) => { o with verbose := true }
  | (.help, _) => o

/-- The action with one more of its options given. -/
def Action.give (a : Action) : Given Special → Action
  | (.all, _) => match a with
    | list _ => list true
    | a => a
  | (.help, _) => a

/-! ## Pages -/

/-- The pages of help: the general one, and one for each action. -/
inductive Page
  | general
  | special (action : Action)
  deriving DecidableEq, Repr

namespace Page

/-- The name of the program. -/
def program : Page → Text
  | general => "taskmd".toList
  | special a => "taskmd ".toList ++ a.name

/-- The lines that show the options. -/
def usage : Page → Text
  | general =>
    Text.joinLines
      ["usage: taskmd [-h] [-i INPUT] [-o OUTPUT] [--local-times] [--tz TZ] [-v]".toList,
        "              \x7bconvert,check,list\x7d ...".toList, []]
  | special (.list showDone) =>
    "usage: ".toList ++ program (special (.list showDone)) ++ " [-h] [--all]\n".toList
  | special a => "usage: ".toList ++ program (special a) ++ " [-h]\n".toList

/-- The lines below the usage. -/
def body : Page → Text
  | general =>
    Text.joinLines
      ["".toList,
        "Parse and rewrite markdown task lists.".toList,
        "".toList,
        "positional arguments:".toList,
        "  \x7bconvert,check,list\x7d".toList,
        "    convert             Parse the input and write it back out".toList,
        "    check               Parse the input and report counts".toList,
        "    list                Show tasks (default hides completed subtasks)".toList,
        "".toList,
        "options:".toList,
        "  -h, --help            show this help message and exit".toList,
        "  -i INPUT, --input INPUT".toList,
        "                        Path to the input document (default: taskell.md)".toList,
        "  -o OUTPUT, --output OUTPUT".toList,
        "                        Path to write the output document (default: taskmd.md)".toList,
        "  --local-times         Write due dates in local time instead of UTC".toList,
        "  --tz TZ               IANA time zone name (default: system)".toList,
        "  -v, --verbose         Debug logging".toList,
        []]
  | special (.list _) =>
    Text.joinLines
      ["".toList, "options:".toList,
        "  -h, --help  show this help message and exit".toList,
        "  --all       Show completed subtasks too".toList, []]
  | special _ =>
    Text.joinLines
      ["".toList, "options:".toList, "  -h, --help  show this help message and exit".toList, []]

/-- The whole page. -/
def text (p : Page) : Text := p.usage ++ p.body

end Page

/-! ## Requests -/

/-- What a command line asks for. -/
inductive Request
  | help (page : Page)
  | refused (page : Page) (refusal : Refusal)
  | run (options : Options)
  deriving DecidableEq, Repr

namespace Request

/-- The actions by their names. -/
def actions : List (Text × Action) :=
  [Action.convert, .check, .list false].map fun a => (a.name, a)

/-- The request for an action, given the words behind its name and what the words before it left
over. -/
def ofAction (o : Options) (a : Action) (words extra : List Text) : Request :=
  match readWords (specialTable a) false words with
  | .refused given refusal =>
    if given.any fun g => g.1 == .help then .help (.special a) else .refused (.special a) refusal
  | .words w =>
    if w.given.any fun g => g.1 == .help then .help (.special a)
    else
      match extra ++ w.extra with
      | [] => .run { o with action := w.given.foldl Action.give a }
      | unread => .refused .general (.unrecognized unread)

/-- The request of a command line. -/
def ofWords (words : List Text) : Request :=
  match readWords generalTable true words with
  | .refused given refusal =>
    if given.any fun g => g.1 == .help then .help .general else .refused .general refusal
  | .words w =>
    if w.given.any fun g => g.1 == .help then .help .general
    else
      let o := w.given.foldl Options.give {}
      match w.rest with
      | [] => if w.extra = [] then .run o else .refused .general (.unrecognized w.extra)
      | name :: rest =>
        match actions.lookup name with
        | some a => ofAction o a rest w.extra
        | none => .refused .general (.notChoice name (actions.map Prod.fst))

end Request

end Taskbook.Command
