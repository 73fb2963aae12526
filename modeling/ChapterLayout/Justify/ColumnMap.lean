import ChapterLayout.Style.Span

/-! # Column maps

Spreading the words of a line moves its columns. A column map records where every word of a line
stood and where it stands now. `ColumnMap.forward` maps a column of the old line to the new one, and
`ColumnMap.reverse` maps back. Inside a word and just past its end both keep the distance from its
start. In a gap, `forward` goes on to the next word, and `reverse` goes back to the end of the word
before. -/

namespace ChapterLayout

/-- A word with the columns it took before and takes now. -/
structure PlacedWord where
  word : Text
  origStart : Int
  origEnd : Int
  newStart : Int
  newEnd : Int
  deriving DecidableEq, Repr

namespace PlacedWord

/-- The new column of an old one inside the word or just past its end. -/
def forward? (w : PlacedWord) (col : Int) : Option Int :=
  if w.origStart ≤ col ∧ col < w.origEnd then some (w.newStart + (col - w.origStart))
  else if col = w.origEnd then some w.newEnd
  else none

/-- The old column of a new one inside the word or just past its end. -/
def reverse? (w : PlacedWord) (col : Int) : Option Int :=
  if w.newStart ≤ col ∧ col < w.newEnd then some (w.origStart + (col - w.newStart))
  else if col = w.newEnd then some w.origEnd
  else none

end PlacedWord

/-- The new column of any old one. Columns before the first word stay, and columns past the last
word go to its end. -/
def forwardColumn (words : List PlacedWord) (col : Int) : Int :=
  match words.findSome? (·.forward? col) with
  | some new => new
  | none =>
    match words.find? (col < ·.origStart), words.head?, words.getLast? with
    | some next, some first, _ => if col < first.origStart then col else next.newStart
    | none, _, some last => last.newEnd
    | _, _, _ => col

/-- The old column of any new one. Columns before the first word stay, and columns past the last
word go to its end. -/
def reverseColumn (words : List PlacedWord) (col : Int) : Int :=
  match words.findSome? (·.reverse? col) with
  | some old => old
  | none =>
    match (words.takeWhile (·.newStart ≤ col)).getLast? with
    | some before => before.origEnd
    | none => col

/-- The columns of a line before and after its words were spread. -/
structure ColumnMap where
  words : List PlacedWord
  origLength : Int
  newLength : Int
  deriving DecidableEq, Repr

namespace ColumnMap

/-- The new column of an old one, both moved into their lines. -/
def forward (map : ColumnMap) (col : Int) : Int :=
  clampColumn (forwardColumn map.words (clampColumn col map.origLength)) map.newLength

/-- The old column of a new one, both moved into their lines. -/
def reverse (map : ColumnMap) (col : Int) : Int :=
  clampColumn (reverseColumn map.words (clampColumn col map.newLength)) map.origLength

/-- The record with its columns mapped to the new line. -/
def move {ρ : Type} [Positioned ρ] (map : ColumnMap) (record : ρ) : ρ :=
  Positioned.withColumns record (map.forward (Positioned.startCol record))
    (map.forward (Positioned.endCol record))

end ColumnMap

end ChapterLayout
