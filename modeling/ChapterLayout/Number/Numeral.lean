import ChapterLayout.Text.Basic
import ChapterLayout.Text.Table.DecimalDigit
import ChapterLayout.Number.Binary64

/-! # Numerals

Reading decimal numerals. A numeral may have blanks around it and a sign before it, its digits may
be those of any script, and single underscores may stand between digits. `Numeral.integer?` reads an
integer of at most 4300 digits, and `Numeral.binary64?` the binary64 number nearest to a decimal
fraction. -/

namespace ChapterLayout.Numeral

/-! ## Digits -/

/-- The value of a decimal digit of any script. -/
def digit? (c : Char) : Option Nat :=
  let n := c.toNat
  if n < 0x80 then (if c.isDigit then some (n - 0x30) else none)
  else (Text.digitZeros.find? fun z => decide (z ≤ n) && decide (n < z + 10)).map (n - ·)

/-- The blanks that may surround a numeral. -/
def isNumeralBlank (c : Char) : Bool :=
  Text.isBlank c && !(decide (0x1C ≤ c.toNat) && decide (c.toNat ≤ 0x1F))

/-- The text without the blanks that may surround a numeral. -/
def strip (s : Text) : Text := Text.trimRight isNumeralBlank (Text.trimLeft isNumeralBlank s)

/-- The values of the digits at the start of the text, where a single underscore may stand between
two digits, and the rest of the text. -/
def digits : Text → List Nat × Text
  | [] => ([], [])
  | '_' :: s => ([], '_' :: s)
  | c :: s =>
    match digit? c, s with
    | none, _ => ([], c :: s)
    | some d, '_' :: e :: s =>
      if (digit? e).isSome then
        let (ds, rest) := digits (e :: s)
        (d :: ds, rest)
      else ([d], '_' :: e :: s)
    | some d, s =>
      let (ds, rest) := digits s
      (d :: ds, rest)
termination_by s => s.length

/-- The number that digits write in the given base. -/
def value (base : Nat) (ds : List Nat) : Nat := ds.foldl (fun n d => n * base + d) 0

/-- A sign at the start of the text: whether it is a minus, and the rest. -/
def sign : Text → Bool × Text
  | '-' :: s => (true, s)
  | '+' :: s => (false, s)
  | s => (false, s)

/-! ## Integers -/

/-- The greatest number of digits of an integer that is read. -/
def maxDigits : Nat := 4300

/-- The integer that the text writes, if it is an integer numeral. -/
def integer? (s : Text) : Option Int :=
  let (negative, s) := sign (strip s)
  match digits s with
  | ([], _) => none
  | (ds, []) =>
    if maxDigits < ds.length then none
    else
      let n : Int := value 10 ds
      some (if negative then -n else n)
  | _ => none

/-! ## Fractions -/

/-- The binary64 number nearest to `± n · 10 ^ e`. A number of `d` digits lies below
`10 ^ (e + d)`, so exponents far outside the range of the format need no computation. -/
def scaled (negative : Bool) (n : Nat) (e : Int) : Binary64 :=
  let top := e + (Nat.toDigits 10 n).length
  if n = 0 || top < -400 then .finite negative 0 (-1074)
  else if 400 < top then .infinite negative
  else if 0 ≤ e then .round negative (n * Nat.pow 10 e.toNat) 1
  else .round negative n (Nat.pow 10 (-e).toNat)

/-- The exponent part of a decimal fraction, which is the whole text. -/
def exponent? : Text → Option Int
  | [] => some 0
  | c :: s =>
    if c == 'e' || c == 'E' then
      let (negative, s) := sign s
      match digits s with
      | ([], _) => none
      | (ds, []) =>
        let n : Int := value 10 ds
        some (if negative then -n else n)
      | _ => none
    else none

/-- The decimal fraction that the text writes, without its sign. -/
def fraction? (negative : Bool) (s : Text) : Option Binary64 :=
  let (whole, s) := digits s
  let (part, s) := match s with
    | '.' :: s => digits s
    | s => ([], s)
  if whole.isEmpty && part.isEmpty then none
  else (exponent? s).map fun e => scaled negative (value 10 (whole ++ part)) (e - part.length)

/-- The binary64 number that the text writes: a decimal fraction, an infinity or the number that is
none. -/
def binary64? (s : Text) : Option Binary64 :=
  let (negative, s) := sign (strip s)
  let name := s.map Char.toLower
  if name == "nan".toList then some .nan
  else if name == "inf".toList || name == "infinity".toList then some (.infinite negative)
  else fraction? negative s

end ChapterLayout.Numeral
