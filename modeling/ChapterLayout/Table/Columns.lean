import ChapterLayout.Number.Binary64
import ChapterLayout.Table.Draft
import ChapterLayout.Text.Width

/-! # Column widths of a table

Every column asks for the width of its widest cell, and for ten columns at least. If they fit into
the room, they get what they ask for. Otherwise the room is shared out in proportion, in binary64
arithmetic and rounded down, and still no column gets less than ten. -/

namespace ChapterLayout.Table

/-- The least width of a column. -/
def minColumnWidth : Nat := 10

/-- The number of columns: the cells of the longest row. -/
def columnCount (headers : Row) (rows : List Row) : Nat :=
  ((headers :: rows).map List.length).foldl max 0

/-- The width a column asks for. -/
def naturalWidth (headers : Row) (rows : List Row) (column : Nat) : Nat :=
  (((headers :: rows).filterMap (·[column]?)).map Text.width).foldl max minColumnWidth

/-- The widths that the columns ask for. -/
def naturalWidths (headers : Row) (rows : List Row) : List Nat :=
  (List.range (columnCount headers rows)).map (naturalWidth headers rows)

/-- The room for the text of `columns` columns: what the indentation, the borders and a space on
both sides of each cell leave, and the least widths in any case. -/
def room (columns : Nat) (maxWidth indentWidth : Int) : Int :=
  max (maxWidth - indentWidth - (columns + 1) - columns * 2) (columns * minColumnWidth)

/-- The share of the room of a column that asks for `natural` of `total`. -/
def share (natural total : Nat) (available : Int) : Int :=
  (((Binary64.ratio natural total).mul ((Binary64.ofInt? available).getD .nan)).truncate?).getD 0

/-- The width of every column of the table. -/
def columnWidths (headers : Row) (rows : List Row) (maxWidth indentWidth : Int) : List Int :=
  let natural := naturalWidths headers rows
  let available := room natural.length maxWidth indentWidth
  let total : Nat := natural.foldr (fun w n => w + n) 0
  if (total : Int) ≤ available then natural.map Int.ofNat
  else natural.map fun w => max (share w total available) minColumnWidth

end ChapterLayout.Table
