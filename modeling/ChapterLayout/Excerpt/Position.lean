import ChapterLayout.Text.Basic

/-! # Positions and offsets

A position is a range of columns that may go over several lines. An offset counts the characters of
the lines joined by line feeds. `toOffset` and `ofOffset` convert between a line with a column and
an offset. -/

namespace ChapterLayout

/-- A range of text from a column of one line up to, and not including, a column of another. -/
structure TextRange where
  startLine : Int
  startCol : Int
  endLine : Int
  endCol : Int
  deriving DecidableEq, Repr

namespace TextRange

/-- Whether a column of a line lies in the range. -/
def contains (range : TextRange) (line col : Int) : Bool :=
  decide (range.startLine ≤ line) && decide (line ≤ range.endLine) &&
    !(line == range.startLine && decide (col < range.startCol)) &&
    !(line == range.endLine && decide (range.endCol ≤ col))

end TextRange

namespace Offset

/-- The offset of a column of a line. Lines before the first count as the first, and lines past the
last as the end of the text and a line feed. -/
def toOffset (lines : List Line) (line col : Int) : Int :=
  ((lines.take line.toNat).foldr (fun l n => l.length + 1 + n) 0 : Nat) + col

/-- The line and column of an offset in lines of which the first has the number `index`. Offsets
past the end go to the end of the last line. -/
def ofOffsetFrom (index : Int) : List Line → (offset : Int) → Int × Int
  | [], _ => (index, 0)
  | [line], offset => (index, if offset ≤ line.length then max offset 0 else line.length)
  | line :: lines, offset =>
    if offset ≤ line.length then (index, max offset 0)
    else ofOffsetFrom (index + 1) lines (offset - (line.length + 1))

/-- The line and column of an offset. -/
def ofOffset (lines : List Line) (offset : Int) : Int × Int := ofOffsetFrom 0 lines offset

end Offset

end ChapterLayout
