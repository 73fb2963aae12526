import ChapterLayout.Number.Binary64
import ChapterLayout.Text.Basic

/-! # Values of settings

What a settings file or a caller may give for a setting, before anything is known about it. -/

namespace ChapterLayout

/-- A value given for a setting. -/
inductive Value where
  /-- Nothing. -/
  | null
  | boolean (b : Bool)
  | integer (i : Int)
  | fraction (x : Binary64)
  | text (s : Text)
  /-- A date, a time or both, as it is written. -/
  | moment (s : Text)
  | list (items : List Value)
  | table (entries : List (Text × Value))
  /-- The three units of indentation and spacing. -/
  | units (indentSize listIndent paragraphSpacing : Value)
  deriving Repr

namespace Value

/-- Whether the value is nothing. -/
def isNull : Value → Bool
  | null => true
  | _ => false

/-- The integer that the value is. -/
def integer? : Value → Option Int
  | integer i => some i
  | _ => none

/-- The truth value that the value is. -/
def boolean? : Value → Option Bool
  | boolean b => some b
  | _ => none

end Value

end ChapterLayout
