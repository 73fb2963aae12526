import ChapterLayout.Text.Quoted

/-! # Faults in a TOML document

What can be wrong with a document, and where. A reader works on the rest of the document, so a fault
carries the rest that it was found at, and `Fault.message` counts lines and columns from it. -/

namespace ChapterLayout.Toml

/-- The names that lead to a value, from the top of the document. -/
abbrev Key := List Text

/-- A key as messages show it: its names in brackets, with a comma behind a single one. -/
def Key.shown (key : Key) : Text :=
  let names := key.map Text.quoted
  ['('] ++ ", ".toList.intercalate names ++ (if names.length == 1 then [','] else []) ++ [')']

/-- What is wrong. -/
inductive Flaw where
  | invalidStatement
  | lineContinues
  | declaredTwice (key : Key)
  | overwritten
  | tableHeaderOpen
  | listHeaderOpen
  | immutable (key : Key)
  | redefined (key : Key)
  | equalsMissing
  | invalidKey
  | unclosedArray
  | unclosedTable
  | duplicateName (name : Text)
  | invalidEscape
  | invalidHex
  | notAScalar
  | unterminated
  | illegalCharacter (c : Char)
  | invalidCharacter (c : Char)
  | expected (s : Text)
  | invalidMoment
  | invalidValue
  /-- An integer has too many digits to be read. -/
  | tooManyDigits (count : Nat)
  deriving DecidableEq, Repr

/-- What is wrong, in words. -/
def Flaw.message : Flaw → Text
  | invalidStatement => "Invalid statement".toList
  | lineContinues => "Expected newline or end of document after a statement".toList
  | declaredTwice key => "Cannot declare ".toList ++ key.shown ++ " twice".toList
  | overwritten => "Cannot overwrite a value".toList
  | tableHeaderOpen => "Expected ']' at the end of a table declaration".toList
  | listHeaderOpen => "Expected ']]' at the end of an array declaration".toList
  | immutable key => "Cannot mutate immutable namespace ".toList ++ key.shown
  | redefined key => "Cannot redefine namespace ".toList ++ key.shown
  | equalsMissing => "Expected '=' after a key in a key/value pair".toList
  | invalidKey => "Invalid initial character for a key part".toList
  | unclosedArray => "Unclosed array".toList
  | unclosedTable => "Unclosed inline table".toList
  | duplicateName name => "Duplicate inline table key ".toList ++ Text.quoted name
  | invalidEscape => "Unescaped '\\' in a string".toList
  | invalidHex => "Invalid hex value".toList
  | notAScalar => "Escaped character is not a Unicode scalar value".toList
  | unterminated => "Unterminated string".toList
  | illegalCharacter c => "Illegal character ".toList ++ Text.quoted [c]
  | invalidCharacter c => "Found invalid character ".toList ++ Text.quoted [c]
  | expected s => "Expected ".toList ++ Text.quoted s
  | invalidMoment => "Invalid date or datetime".toList
  | invalidValue => "Invalid value".toList
  | tooManyDigits count =>
    "Exceeds the limit (4300 digits) for integer string conversion: value has ".toList ++
      Text.ofNat count ++
      " digits; use sys.set_int_max_str_digits() to increase the limit".toList

/-- A flaw and the rest of the document where it was found. -/
structure Fault where
  flaw : Flaw
  rest : Text
  deriving DecidableEq, Repr

namespace Fault

/-- Where the text `rest` at the end of a document starts. -/
def place (document rest : Text) : Text :=
  if rest.isEmpty then "end of document".toList
  else
    let passed := document.take (document.length - rest.length)
    let line := passed.count '\n' + 1
    let column := (passed.reverse.takeWhile (· != '\n')).length + 1
    "line ".toList ++ Text.ofNat line ++ ", column ".toList ++ Text.ofNat column

/-- The fault in words, for the document it was found in. -/
def message (fault : Fault) (document : Text) : Text :=
  fault.flaw.message ++ " (at ".toList ++ place document fault.rest ++ [')']

end Fault

/-- The failure of a reader at a text. -/
def fail {α : Type} (flaw : Flaw) (rest : Text) : Except Fault (α × Text) := .error ⟨flaw, rest⟩

end ChapterLayout.Toml
