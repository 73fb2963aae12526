import ChapterLayout.Number.Numeral
import ChapterLayout.Settings.Value
import ChapterLayout.Toml.Fault

/-! # Numbers and moments of a TOML document

Numbers in the bases two, eight, ten and sixteen, decimal fractions, dates and times. Each reader
takes the longest piece at the start of a text that is written as its rule asks. -/

namespace ChapterLayout.Toml

/-! ## Digits -/

/-- Whether a character is a decimal digit. -/
def isDecimal (c : Char) : Bool := c.isDigit

/-- Whether a character is a hexadecimal digit. -/
def isHexadecimal (c : Char) : Bool :=
  c.isDigit || ('a' ≤ c && c ≤ 'f') || ('A' ≤ c && c ≤ 'F')

/-- The digits at the start of a text, where a single underscore may stand between two of them, and
the rest of the text. -/
def digitRun (isDigit : Char → Bool) : Text → Text × Text
  | [] => ([], [])
  | c :: s =>
    if !isDigit c then ([], c :: s)
    else
      match s with
      | '_' :: d :: t =>
        if isDigit d then
          let (run, rest) := digitRun isDigit (d :: t)
          (c :: run, rest)
        else ([c], s)
      | s =>
        let (run, rest) := digitRun isDigit s
        (c :: run, rest)
termination_by s => s.length

/-- The number that digits write in the given base. -/
def numberOf (base : Nat) (digits : Text) : Nat :=
  digits.foldl (fun n c =>
    n * base + (if c.isDigit then c.toNat - 0x30 else c.toLower.toNat - 0x57)) 0

/-! ## Numbers -/

/-- A number with the mark of its base. -/
def basedNumber? : Text → Option (Value × Text)
  | '0' :: mark :: s =>
    let base := if mark == 'x' then 16 else if mark == 'b' then 2 else if mark == 'o' then 8 else 0
    let isDigit (c : Char) := isHexadecimal c && decide (numberOf 16 [c] < base)
    match digitRun isDigit s with
    | ([], _) => none
    | (digits, rest) => some (.integer (numberOf base digits), rest)
  | _ => none

/-- The digits before the point of a decimal number: a zero, or digits of which the first one is
none. -/
def wholePart? (s : Text) : Option (Text × Text) :=
  match s with
  | '0' :: s => some (['0'], s)
  | s =>
    match digitRun isDecimal s with
    | ([], _) => none
    | found => some found

/-- A piece that consists of a mark and digits, or nothing. -/
def markedDigits (mark : Text) (s : Text) : Text × Text :=
  match digitRun isDecimal s with
  | ([], _) => ([], mark ++ s)
  | (digits, rest) => (mark ++ digits, rest)

/-- The part of a decimal number from its point on. -/
def fractionPart : Text → Text × Text
  | '.' :: s => markedDigits ['.'] s
  | s => ([], s)

/-- The exponent of a decimal number. -/
def exponentPart : Text → Text × Text
  | [] => ([], [])
  | c :: s =>
    if c == 'e' || c == 'E' then
      match s with
      | '+' :: s => markedDigits [c, '+'] s
      | '-' :: s => markedDigits [c, '-'] s
      | s => markedDigits [c] s
    else ([], c :: s)

/-- A sign at the start of a text. -/
def signPart : Text → Text × Text
  | '+' :: s => (['+'], s)
  | '-' :: s => (['-'], s)
  | s => ([], s)

/-- A decimal number: an integer, or a fraction if it has a point or an exponent. -/
def decimalNumber? (s : Text) : Option (Except Flaw Value × Text) := do
  let (sign, s) := signPart s
  let (whole, s) ← wholePart? s
  let (part, s) := fractionPart s
  let (exponent, s) := exponentPart s
  if part.isEmpty && exponent.isEmpty then
    let n : Int := numberOf 10 whole
    let value : Value := .integer (if sign == ['-'] then -n else n)
    return (if Numeral.maxDigits < whole.length then .error (.tooManyDigits whole.length)
      else .ok value, s)
  else
    return (.ok (.fraction ((Numeral.binary64? (sign ++ whole ++ part ++ exponent)).getD .nan)), s)

/-- The names of numbers that have no digits. -/
def namedNumbers : List (Text × Binary64) :=
  [("inf", .infinite false), ("nan", .nan), ("-inf", .infinite true), ("+inf", .infinite false),
    ("-nan", .nan), ("+nan", .nan)].map fun (name, x) => (name.toList, x)

/-- A number without digits. -/
def namedNumber? (s : Text) : Option (Value × Text) :=
  (namedNumbers.find? fun entry => Text.startsWith s entry.1).map fun (name, x) =>
    (.fraction x, s.drop name.length)

/-! ## Moments -/

/-- A number of exactly `count` digits within `lo … hi`. -/
def field? (count lo hi : Nat) (s : Text) : Option (Nat × Text) :=
  let digits := s.take count
  let n := numberOf 10 digits
  if digits.length == count && digits.all isDecimal && decide (lo ≤ n) && decide (n ≤ hi) then
    some (n, s.drop count)
  else none

/-- The rest after a character. -/
def after? (c : Char) : Text → Option Text
  | [] => none
  | d :: s => if c == d then some s else none

/-- The rest after the parts of a second, if there are any. -/
def skipParts : Text → Text
  | '.' :: c :: s => if isDecimal c then s.dropWhile isDecimal else '.' :: c :: s
  | s => s

/-- The rest after a time of day. -/
def time? (s : Text) : Option Text := do
  let (_, s) ← field? 2 0 23 s
  let (_, s) ← field? 2 0 59 (← after? ':' s)
  let (_, s) ← field? 2 0 59 (← after? ':' s)
  return skipParts s

/-- The rest after a distance from universal time, if there is one. -/
def skipOffset (s : Text) : Text :=
  match s with
  | [] => []
  | c :: t =>
    if c == 'Z' || c == 'z' then t
    else if c == '+' || c == '-' then
      let rest? := do
        let (_, t) ← field? 2 0 23 t
        let (_, t) ← field? 2 0 59 (← after? ':' t)
        return t
      rest?.getD s
    else s

/-- The number of days of a month. -/
def monthLength (year month : Nat) : Nat :=
  if month == 2 then
    if year % 4 == 0 && (year % 100 != 0 || year % 400 == 0) then 29 else 28
  else if [4, 6, 9, 11].contains month then 30
  else 31

/-- Whether there is such a date, and the rest after it. -/
def date? (s : Text) : Option (Bool × Text) := do
  let (year, s) ← field? 4 0 9999 s
  let (month, s) ← field? 2 1 12 (← after? '-' s)
  let (day, s) ← field? 2 1 31 (← after? '-' s)
  return (decide (0 < year) && decide (day ≤ monthLength year month), s)

/-- The rest after a time that follows a date, if one does. -/
def skipTime (s : Text) : Text :=
  match s with
  | [] => []
  | c :: t =>
    if c == 'T' || c == 't' || c == ' ' then ((time? t).map skipOffset).getD s else s

/-- The piece of a text before its end `rest`. -/
def before (s rest : Text) : Text := s.take (s.length - rest.length)

/-- A date, a time or both. -/
def moment? (s : Text) : Option (Except Flaw Value × Text) :=
  match date? s with
  | some (real, t) =>
    let rest := skipTime t
    some (if real then .ok (.moment (before s rest)) else .error .invalidMoment, rest)
  | none => (time? s).map fun rest => (.ok (.moment (before s rest)), rest)

end ChapterLayout.Toml
