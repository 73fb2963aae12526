/-! # Limits of the machine

Two things end a computation on inputs that are otherwise valid: a number that the arithmetic of
fractions cannot hold, and a text too long to be made. `LimitError.ofCopies?` says which lengths are
too long. Only the length of a text that is made at one stroke is limited: lists of lines and of
records are taken to have room for all their items. -/

namespace ChapterLayout

/-- Why a computation cannot be carried out. -/
inductive LimitError where
  /-- An integer lies outside the range of binary64. -/
  | integerTooLarge
  /-- An infinite number has no integer below it. -/
  | infiniteNumber
  /-- Not a number has no integer below it. -/
  | notANumber
  /-- The length of a text does not fit into a machine word. -/
  | lengthTooLarge
  /-- A text does not fit into memory. -/
  | outOfMemory
  deriving DecidableEq, Repr

namespace LimitError

/-- The error's text. -/
def message : LimitError → String
  | integerTooLarge => "int too large to convert to float"
  | infiniteNumber => "cannot convert float infinity to integer"
  | notANumber => "cannot convert float NaN to integer"
  | lengthTooLarge => "cannot fit 'int' into an index-sized integer"
  | outOfMemory => ""

/-- The greatest length that fits into a machine word. -/
def maxLength : Int := 0x7FFFFFFFFFFFFFFF

/-- A number of characters that no memory can hold. It stands in for the memory of the machine,
which nothing in the layout fixes: the number is chosen, and all that counts is that it is positive
and not greater than the lengths that fit into a machine word. -/
def memorySize : Int := 0x1000000000

/-- Why a text cannot consist of `count` copies of a character, if it cannot. A negative count
stands for no copies, but it has to fit into a machine word as well. -/
def ofCopies? (count : Int) : Option LimitError :=
  if maxLength < count || count < -maxLength - 1 then some lengthTooLarge
  else if memorySize ≤ count then some outOfMemory
  else none

/-- The first reason among the given counts of copies, as an error. -/
def checkCopies : List Int → Except LimitError Unit
  | [] => .ok ()
  | count :: counts =>
    match ofCopies? count with
    | some e => .error e
    | none => checkCopies counts

end LimitError

end ChapterLayout
