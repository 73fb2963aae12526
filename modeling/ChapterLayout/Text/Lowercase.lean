import ChapterLayout.Text.Basic
import ChapterLayout.Text.Table.Alphanumeric
import ChapterLayout.Text.Table.LetterCase

/-! # Lowercase text

Full lowercasing. Most capitals have a single lowercase letter. The dotted capital `İ` becomes two
characters, and the capital sigma becomes `ς` at the end of a word and `σ` elsewhere, where
characters that case ignores are passed over on both sides. -/

namespace ChapterLayout.Text

/-- The lowercase letter of a single character, regardless of its neighbours. -/
def lowerChar (c : Char) : Char :=
  let n := c.toNat
  if n < 0x80 then c.toLower
  else
    match capitalRuns.find? (fun run =>
      decide (run.first ≤ n) && decide (n ≤ run.last) && (n - run.first) % run.step == 0) with
    | some run => Char.ofNat ((n : Int) + run.shift).toNat
    | none => c

/-- Whether the first character of `s` that case does not ignore is a cased letter. -/
def meetsLetter (s : Text) : Bool :=
  match s.dropWhile (fun c => caseIgnorable.contains c.toNat) with
  | [] => false
  | c :: _ => cased.contains c.toNat

/-- The lowercase form of the text that stands after `before`, which is reversed. -/
def lowerAfter (before : Text) : Text → Text
  | [] => []
  | c :: s =>
    let rest := lowerAfter (c :: before) s
    if c.toNat == 0x130 then 'i' :: Char.ofNat 0x307 :: rest
    else if c == 'Σ' then
      (if meetsLetter before && !meetsLetter s then 'ς' else 'σ') :: rest
    else lowerChar c :: rest

/-- The lowercase form of the text. -/
def lower (s : Text) : Text := lowerAfter [] s

/-- Characters of a word in a name: letters and digits of every script, and the underscore. -/
def isWordChar (c : Char) : Bool :=
  if c.toNat < 0x80 then c.isAlphanum || c == '_' else alphanumeric.contains c.toNat

/-- Letters of the Latin alphabet without marks. -/
def isAsciiLetter (c : Char) : Bool := c.isAlpha

/-- Whether two characters are the same letter when case is ignored. Of the letters in question, `s`
also has the long form `ſ`, and `i` the forms `ı` and `İ`. -/
def sameLetter (letter c : Char) : Bool :=
  c.toLower == letter || (letter == 's' && c == 'ſ') || (letter == 'i' && (c == 'ı' || c == 'İ'))

end ChapterLayout.Text
