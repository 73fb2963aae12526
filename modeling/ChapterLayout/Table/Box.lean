import ChapterLayout.Limits
import ChapterLayout.Table.Columns

/-! # Tables in boxes

A table as lines of text with a box around its cells. `wrapCell` breaks the text of a cell into
lines greedily, `row` draws the lines of one row, `border` draws a line between rows, and `draw`
draws the whole table. -/

namespace ChapterLayout.Table

/-! ## Cells -/

/-- The greedy filling of lines with words: a word goes on the current line if it fits there after a
space, and starts the next line otherwise. An empty current line is not begun yet. -/
def fillCell (width : Int) : (current : Text) → List Text → List Line
  | current, [] => if current.isEmpty then [] else [current]
  | current, word :: rest =>
    let candidate := if current.isEmpty then word else current ++ ' ' :: word
    if (Text.width candidate : Int) ≤ width then fillCell width candidate rest
    else if current.isEmpty then fillCell width word rest
    else current :: fillCell width word rest

/-- The lines of a cell, with one space between words. A word that is too wide has a line of its
own. -/
def wrapCell (s : Text) (width : Int) : List Line :=
  if (Text.width (Text.squeeze s) : Int) ≤ width then [Text.squeeze s]
  else
    match fillCell width [] (Text.words Text.isBlank s) with
    | [] => [[]]
    | lines => lines

/-- The number of spaces that pad a cell's line to its column; a line that fills it needs none. -/
def padding (s : Text) (width : Int) : Int := max 0 (width - Text.width s)

/-- The text padded with spaces on the right. -/
def padCell (s : Text) (width : Int) : Text := s ++ Text.spaces (padding s width)

/-! ## Rows and borders -/

/-- The lines of every cell of a row; a missing cell has one empty line. -/
def wrapRow (cells : Row) (widths : List Int) : List (List Line) :=
  List.zipWith wrapCell cells widths ++ List.replicate (widths.length - cells.length) [[]]

/-- The number of lines of a row. -/
def rowHeight (wrapped : List (List Line)) : Nat := (wrapped.map List.length).foldl max 0

/-- The texts in one line of a row, each with the width of its column. -/
def rowLine (wrapped : List (List Line)) (widths : List Int) (index : Nat) : List (Text × Int) :=
  List.zip (wrapped.map (·.getD index [])) widths

/-- The lines of a row. -/
def row (cells : Row) (widths : List Int) (indent : Text) : List Line :=
  let wrapped := wrapRow cells widths
  (List.range (rowHeight wrapped)).map fun index =>
    indent ++ '│' :: (rowLine wrapped widths index).flatMap fun (s, width) =>
      ' ' :: padCell s width ++ [' ', '│']

/-- The corners of a border: at its left, between columns, and at its right. -/
structure Corners where
  left : Text
  middle : Text
  right : Text

namespace Corners

/-- The corners of the border above the table. -/
def top : Corners := ⟨['┌'], ['┬'], ['┐']⟩

/-- The corners of the borders between rows. -/
def inner : Corners := ⟨['├'], ['┼'], ['┤']⟩

/-- The corners of the border below the table. -/
def bottom : Corners := ⟨['└'], ['┴'], ['┘']⟩

end Corners

/-- The number of strokes above a column. -/
def strokes (width : Int) : Int := width + 2

/-- A border line. -/
def border (widths : List Int) (indent : Text) (corners : Corners) : Line :=
  indent ++ corners.left ++
    corners.middle.intercalate (widths.map fun w => List.replicate (strokes w).toNat '─') ++
    corners.right

/-! ## Tables -/

/-- The lines of the body rows with borders between them. -/
def body (widths : List Int) (indent : Text) (rows : List Row) : List Line :=
  [border widths indent .inner].intercalate (rows.map (row · widths indent))

/-- The lines of the table, none if it has no cells. -/
def draw (headers : Row) (rows : List Row) (maxWidth : Int) (indent : Text) : List Line :=
  let widths := columnWidths headers rows maxWidth (Text.width indent)
  if widths.isEmpty then []
  else
    [border widths indent .top] ++
    (if headers.isEmpty then []
      else row headers widths indent ++ [border widths indent .inner]) ++
    body widths indent rows ++
    [border widths indent .bottom]

/-! ## Widths beyond all limits -/

/-- Why a row or border of given widths cannot be drawn. -/
inductive Error where
  /-- A row has no columns. -/
  | noColumns
  /-- A line is too long. -/
  | limit (e : LimitError)

/-- The error's text. -/
def Error.message : Error → String
  | noColumns => "max() arg is an empty sequence"
  | limit e => e.message

/-- The padded text, unless it is too long to be made. -/
def padCell? (s : Text) (width : Int) : Except LimitError Text := do
  LimitError.checkCopies [padding s width]
  return padCell s width

/-- The lines of a row, if it has columns and its lines can be made. -/
def row? (cells : Row) (widths : List Int) (indent : Text) : Except Error (List Line) := do
  if widths.isEmpty then throw .noColumns
  let wrapped := wrapRow cells widths
  let paddings := (List.range (rowHeight wrapped)).flatMap fun index =>
    (rowLine wrapped widths index).map fun (s, width) => padding s width
  (LimitError.checkCopies paddings).mapError .limit
  return row cells widths indent

/-- A border line, unless it is too long to be made. -/
def border? (widths : List Int) (indent : Text) (corners : Corners) : Except LimitError Line := do
  LimitError.checkCopies (widths.map strokes)
  return border widths indent corners

end ChapterLayout.Table
