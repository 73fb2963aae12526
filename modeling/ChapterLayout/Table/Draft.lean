import ChapterLayout.Text.Basic

/-! # Tables under collection

The header, the rows and the cell that the tags of a table have given so far. `TableDraft.update`
takes one more tag. Text of a cell is added to `currentCell` by the caller. -/

namespace ChapterLayout

/-- The cells of one row. -/
abbrev Row := List Text

/-- What is known of a table before its end. -/
structure TableDraft where
  /-- Whether a table is open at all. -/
  inTable : Bool := false
  /-- Whether the header section is open. -/
  inHead : Bool := false
  /-- Whether a row is open. -/
  inRow : Bool := false
  headers : Row := []
  rows : List Row := []
  currentRow : Row := []
  currentCell : Text := []
  deriving DecidableEq, Repr

namespace TableDraft

/-- The parts of a table that its tags open and close. -/
inductive Part where
  | head
  | row
  | cell
  deriving DecidableEq, Repr

/-- The part a tag stands for; body and foot sections stand for none. -/
def Part.ofTag? (name : Text) : Option Part :=
  if name == "thead".toList then some head
  else if name == "tr".toList then some row
  else if name == "th".toList || name == "td".toList then some cell
  else none

/-- The table after its current row is finished. The row becomes the header if the header section is
open, and a row without cells is dropped. -/
def finishRow (table : TableDraft) : TableDraft :=
  let keep := table.inRow && !table.currentRow.isEmpty
  { table with
    headers := if keep && table.inHead then table.currentRow else table.headers
    rows := if keep && !table.inHead then table.rows ++ [table.currentRow] else table.rows
    currentRow := []
    inRow := false }

/-- The table after its current cell is finished. -/
def finishCell (table : TableDraft) : TableDraft :=
  { table with
    currentRow :=
      if table.inRow then table.currentRow ++ [Text.squeeze table.currentCell]
      else table.currentRow
    currentCell := [] }

/-- The table after a tag that opens or closes one of its parts. -/
def updatePart (table : TableDraft) (closing : Bool) : Part → TableDraft
  | .head => { table with inHead := !closing }
  | .row => if closing then table.finishRow else { table with inRow := true, currentRow := [] }
  | .cell => if closing then table.finishCell else { table with currentCell := [] }

/-- The table after one more tag. Outside a table every tag is ignored. -/
def update (table : TableDraft) (name : Text) (closing : Bool) : TableDraft :=
  if table.inTable then
    match Part.ofTag? name with
    | some part => table.updatePart closing part
    | none => table
  else table

/-- The table with text added to its current cell. -/
def addText (table : TableDraft) (s : Text) : TableDraft :=
  { table with currentCell := table.currentCell ++ s }

end TableDraft

end ChapterLayout
