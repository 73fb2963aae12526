import ChapterLayout.Chapter
import ChapterLayout.Command.Arguments
import ChapterLayout.Settings.Lookup
import ChapterLayout.Surface.Escapes
import ChapterLayout.Surface.Plain

/-! # Running the command

The command lays out a chapter file with the settings of its directory and the overrides among its
arguments, and writes the drawn page line by line, followed by a list of the link targets if that is
asked for. A run is a function of the tree of files, the environment and the arguments. -/

namespace ChapterLayout.Command

/-- Why a run fails. -/
inductive Failure where
  | usage (e : UsageError)
  | path (e : PathError)
  | settings (e : Tree.FindError)
  | chapter (e : ChapterError)
  | limit (e : LimitError)
  deriving DecidableEq, Repr

/-- What a run writes, and why it failed if it did. -/
structure Outcome where
  output : Text := []
  notices : Text := []
  failure : Option Failure := none
  deriving DecidableEq, Repr

/-! ## Errors -/

/-- Whether the caller is at fault: the arguments, the path or the settings cannot be used. Other
failures concern the contents of the file, or the machine. -/
def Failure.isCallers : Failure → Bool
  | .usage _ => true
  | .path (.circle _) => false
  | .path .unknownHome => false
  | .path .nullCharacter => false
  | .path _ => true
  | .settings (.lookup (.invalidTable ..)) => true
  | .settings (.settings _) => true
  | _ => false

/-- The text of an error in an override. -/
def overrideMessage : Draft.OverrideError → Text
  | .unknownName => "unknown setting".toList
  | .noBundle => "units given without a bundle of typography".toList

/-- The text of a failure by itself. -/
def Failure.reason : Failure → Text
  | .usage e => e.message
  | .path e => e.message
  | .settings (.lookup e) => e.message
  | .settings (.override e) => overrideMessage e
  | .settings (.settings e) => e.message
  | .chapter e => e.message
  | .limit e => e.message.toList

/-- The text of a failure as it is reported. -/
def Failure.message (failure : Failure) : Text :=
  match failure with
  | .usage _ => failure.reason
  | _ => if failure.isCallers then "Invalid value: ".toList ++ failure.reason else failure.reason

/-- The exit code of a failed run. -/
def Failure.exitCode (failure : Failure) : Nat := if failure.isCallers then 2 else 1

/-! ## Reading the arguments -/

/-- Whether a path can only lead to a directory by the way it is written. -/
def namesDirectory (s : Text) : Bool :=
  match (Text.splitOn '/' s).getLast? with
  | some name => name == [] || name == Path.here
  | none => false

/-- The path of a file that is no directory. -/
def checkFile (tree : Tree) (s : Text) : Except Failure Text :=
  if s.isEmpty then .error (.usage (.fileNotFound s))
  else
    match tree.find (Path.ofText s) with
    | .error .nullCharacter => .error (.path .nullCharacter)
    | .error _ => .error (.usage (.fileNotFound s))
    | .ok .directory => .error (.usage (.fileIsDirectory s))
    | .ok _ => if namesDirectory s then .error (.usage (.fileNotFound s)) else .ok s

/-- The values of the options and the path that the arguments give. -/
def readArguments (tree : Tree) (args : List Text) : Except Failure (Arguments × Text) := do
  let sorted ← (sort args).mapError .usage
  let arguments ← (Arguments.ofGiven sorted.given).mapError .usage
  match sorted.operands with
  | [] => throw (.usage .fileMissing)
  | operand :: operands =>
    let file ← checkFile tree operand
    if operands.isEmpty then return (arguments, file) else throw (.usage (.extraOperands operands))

/-- The value that an option gives for a setting. -/
def integerValue : Option Int → Value
  | some i => .integer i
  | none => .null

/-- The overrides that the arguments give. -/
def overrides (arguments : Arguments) : List (Text × Value) :=
  [(Setting.maxWidth.name, integerValue arguments.width),
    (Setting.justify.name, (arguments.justify.map .boolean).getD .null),
    (SpacingUnit.indentSize.name, integerValue arguments.indentSize),
    (SpacingUnit.listIndent.name, integerValue arguments.listIndent),
    (SpacingUnit.paragraphSpacing.name, integerValue arguments.paragraphSpacing)]

/-! ## Writing -/

/-- Lines of output. -/
def linesText (lines : List Text) : Text := lines.flatMap (· ++ ['\n'])

/-- The list of link targets. -/
def linkLines (page : Page) : List Text :=
  if page.links.isEmpty then []
  else
    [] :: page.links.zipIdx.map fun (link, index) =>
      ['['] ++ Text.ofNat (index + 1) ++ "] ".toList ++ link.href ++ " (line ".toList ++
        Text.ofInt (link.line + 1) ++ [')']

/-- The lines with their styles, or without them. -/
def styledLines (styles : Bool) (lines : List Text) : List Text :=
  if styles then lines else lines.map Text.plain

/-- Notices as they are reported. -/
def noticeLines (notices : List Notice) : List Text :=
  notices.map fun n =>
    n.level.name ++ [' '] ++ n.channel ++ ": ".toList ++ n.message

/-- The lines that show a page. Styles are written to a terminal, unless the arguments choose
otherwise for the text. -/
def pageLines (page : Page) (settings : Settings) (arguments : Arguments) (terminal : Bool) :
    Except LimitError (List Text) := do
  let requests ← draw? page settings.maxWidth
  let lines := (Terminal.applyAll {} requests).render
  return styledLines (arguments.color.getD terminal) lines ++
    (if arguments.links then styledLines terminal (linkLines page) else [])

/-! ## Runs -/

/-- Lays out a file with the options of the command: the notices on the way, and the lines to be
written. -/
def layOut (tree : Tree) (environment : Option Text) (terminal : Bool) (arguments : Arguments)
    (file : Text) : List Notice × Except Failure (List Text) :=
  match tree.chapterPath file with
  | .error e => ([], .error (.path e))
  | .ok path =>
    let (found, settings) := tree.findSettings path.parent (overrides arguments)
    match settings with
    | .error e => (found, .error (.settings e))
    | .ok settings =>
      match tree.renderFile environment settings path with
      | .error e => (found, .error (.chapter e))
      | .ok rendering =>
        (found ++ rendering.notices,
          (pageLines rendering.page settings arguments terminal).mapError .limit)

/-- Runs the command, where `terminal` says whether the output goes to a terminal. -/
def run (tree : Tree) (environment : Option Text) (terminal : Bool) (args : List Text) : Outcome :=
  match readArguments tree args with
  | .error e => { failure := some e }
  | .ok (arguments, file) =>
    let (notices, lines) := layOut tree environment terminal arguments file
    let notices := if arguments.verbose then linesText (noticeLines notices) else []
    match lines with
    | .error e => { notices, failure := some e }
    | .ok lines => { notices, output := linesText lines }

end ChapterLayout.Command
