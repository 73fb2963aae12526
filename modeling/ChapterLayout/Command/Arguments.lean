import ChapterLayout.Number.Numeral
import ChapterLayout.Text.Quoted

/-! # Arguments of the command

The command takes options and the path of one file. Options may stand before and after the path, and
after a double dash everything is a path. `readArguments` first sorts the arguments into options
and operands, and then reads the values: those of the options in the order in which the options
first came up, so that of several faulty values the first is reported. Of an option that is given
several times the last one counts. -/

namespace ChapterLayout.Command

/-- The options. -/
inductive OptionName where
  | width
  | indentSize
  | listIndent
  | paragraphSpacing
  | justify
  | color
  | links
  | verbose
  deriving DecidableEq, Repr

/-- What comes with an option. -/
inductive Given where
  /-- A value that was written behind it. -/
  | value (s : Text)
  /-- Whether the option is on. -/
  | flag (on : Bool)
  deriving DecidableEq, Repr

/-- What an option is followed by. -/
inductive Form where
  | takesValue
  | switches (on : Bool)
  deriving DecidableEq, Repr

/-- The options by how they are written. -/
def longOptions : List (Text × (OptionName × Form)) :=
  [("--width".toList, .width, .takesValue),
    ("--justify".toList, .justify, .switches true),
    ("--no-justify".toList, .justify, .switches false),
    ("--indent-size".toList, .indentSize, .takesValue),
    ("--list-indent".toList, .listIndent, .takesValue),
    ("--paragraph-spacing".toList, .paragraphSpacing, .takesValue),
    ("--color".toList, .color, .switches true),
    ("--no-color".toList, .color, .switches false),
    ("--links".toList, .links, .switches true),
    ("--verbose".toList, .verbose, .switches true)]

/-- How an option with a value is written. -/
def OptionName.written : OptionName → Text
  | width => "--width".toList
  | indentSize => "--indent-size".toList
  | listIndent => "--list-indent".toList
  | paragraphSpacing => "--paragraph-spacing".toList
  | justify => "--justify".toList
  | color => "--color".toList
  | links => "--links".toList
  | verbose => "--verbose".toList

/-! ## Errors -/

/-- What is wrong with the arguments. -/
inductive UsageError where
  | unknownOption (name : Text)
  | valueMissing (name : Text)
  | valueNotTaken (name : Text)
  | notAnInteger (option : OptionName) (value : Text)
  | fileMissing
  | fileNotFound (path : Text)
  | fileIsDirectory (path : Text)
  | extraOperands (operands : List Text)
  deriving DecidableEq, Repr

/-- The error's text. -/
def UsageError.message : UsageError → Text
  | unknownOption name => "No such option: ".toList ++ name
  | valueMissing name => "Option ".toList ++ Text.quoted name ++ " requires an argument.".toList
  | valueNotTaken name =>
    "Option ".toList ++ Text.quoted name ++ " does not take a value.".toList
  | notAnInteger option value =>
    "Invalid value for ".toList ++ Text.quoted option.written ++ ": ".toList ++
      Text.quoted value ++ " is not a valid integer.".toList
  | fileMissing => "Missing argument 'FILEPATH'.".toList
  | fileNotFound path =>
    "Invalid value for 'FILEPATH': File ".toList ++ Text.quoted path ++ " does not exist.".toList
  | fileIsDirectory path =>
    "Invalid value for 'FILEPATH': File ".toList ++ Text.quoted path ++ " is a directory.".toList
  | extraOperands operands =>
    "Got unexpected extra argument".toList ++ (if operands.length == 1 then [] else ['s']) ++
      " (".toList ++ [' '].intercalate operands ++ [')']

/-! ## Sorting -/

/-- Arguments sorted into options and operands. -/
structure Sorted where
  given : List (OptionName × Given) := []
  operands : List Text := []
  deriving DecidableEq, Repr

/-- The sorted arguments with one more option before them. -/
def Sorted.addOption (sorted : Sorted) (name : OptionName) (given : Given) : Sorted :=
  { sorted with given := (name, given) :: sorted.given }

/-- The sorted arguments with one more operand before them. -/
def Sorted.addOperand (sorted : Sorted) (operand : Text) : Sorted :=
  { sorted with operands := operand :: sorted.operands }

/-- An option and the value that is attached to it with an equals sign. -/
def splitValue (arg : Text) : Text × Option Text :=
  match Text.splitAtFirst ['='] arg with
  | some (name, value) => (name, some value)
  | none => (arg, none)

/-- Whether an argument is meant as an option. -/
def isOption (arg : Text) : Bool := Text.startsWith arg ['-'] && 1 < arg.length

/-- The options that letters behind a single dash stand for. -/
def letterOptions : Text → Except UsageError (List (OptionName × Given))
  | [] => .ok []
  | c :: letters =>
    if c == 'v' then (letterOptions letters).map ((.verbose, .flag true) :: ·)
    else .error (.unknownOption ['-', c])

/-- Sorts arguments into options and operands. -/
def sort : List Text → Except UsageError Sorted
  | [] => .ok {}
  | arg :: args =>
    if arg == "--".toList then .ok { operands := args }
    else if !isOption arg then (sort args).map (·.addOperand arg)
    else
      let (name, value) := splitValue arg
      match longOptions.lookup name, value with
      | some (option, .takesValue), some value =>
        (sort args).map (·.addOption option (.value value))
      | some (option, .takesValue), none =>
        match args with
        | [] => .error (.valueMissing name)
        | value :: args => (sort args).map (·.addOption option (.value value))
      | some (_, .switches _), some _ => .error (.valueNotTaken name)
      | some (option, .switches on), none => (sort args).map (·.addOption option (.flag on))
      | none, _ =>
        if Text.startsWith arg "--".toList then .error (.unknownOption name)
        else do
          let options ← letterOptions (arg.drop 1)
          let sorted ← sort args
          return { sorted with given := options ++ sorted.given }

/-! ## Reading -/

/-- The arguments of the command. -/
structure Arguments where
  width : Option Int := none
  indentSize : Option Int := none
  listIndent : Option Int := none
  paragraphSpacing : Option Int := none
  justify : Option Bool := none
  /-- Whether styles are written; without a choice they are written to a terminal only. -/
  color : Option Bool := none
  /-- Whether link targets are listed after the text. -/
  links : Bool := false
  /-- Whether notices are reported. -/
  verbose : Bool := false
  deriving DecidableEq, Repr

namespace Arguments

/-- The arguments with the integer of an option. -/
def setInteger (arguments : Arguments) (option : OptionName) (i : Int) : Arguments :=
  match option with
  | .width => { arguments with width := some i }
  | .indentSize => { arguments with indentSize := some i }
  | .listIndent => { arguments with listIndent := some i }
  | .paragraphSpacing => { arguments with paragraphSpacing := some i }
  | _ => arguments

/-- The arguments with an option switched on or off. -/
def setFlag (arguments : Arguments) (option : OptionName) (on : Bool) : Arguments :=
  match option with
  | .justify => { arguments with justify := some on }
  | .color => { arguments with color := some on }
  | .links => { arguments with links := on }
  | .verbose => { arguments with verbose := on }
  | _ => arguments

/-- The arguments with what is given for an option. -/
def set (arguments : Arguments) (option : OptionName) : Given → Except UsageError Arguments
  | .flag on => .ok (arguments.setFlag option on)
  | .value s =>
    match Numeral.integer? s with
    | some i => .ok (arguments.setInteger option i)
    | none => .error (.notAnInteger option s)

/-- What was given last for an option. -/
def lastGiven? (given : List (OptionName × Given)) (option : OptionName) : Option Given :=
  given.reverse.lookup option

/-- The options in the order in which they first came up. -/
def firstUses (given : List (OptionName × Given)) : List OptionName :=
  (given.map (·.1)).eraseDups

/-- The values of all options that are given. -/
def ofGiven (given : List (OptionName × Given)) : Except UsageError Arguments :=
  (firstUses given).foldlM (fun arguments option =>
    match lastGiven? given option with
    | some value => arguments.set option value
    | none => .ok arguments) {}

end Arguments

end ChapterLayout.Command
