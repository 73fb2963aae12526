import ChapterLayout.Flow.State
import ChapterLayout.Table.Box

/-! # Lines of their own

Images, rules, list items and tables, which are laid out on lines of their own. -/

namespace ChapterLayout

namespace Flow

/-- Characters of an indentation. -/
def isIndentChar (c : Char) : Bool := c == ' ' || c == '│'

/-- Commits a line that is exempt from justification and highlighted after its indentation. -/
def commitBlock (flow : Flow) (s : Text) (group : Group) : Flow :=
  let index := flow.lineIndex
  let indentLength := (s.takeWhile isIndentChar).length
  (((({ flow with current := s }).addSpan indentLength s.length group).commit).exempt index)

/-! ## Images and rules -/

/-- The label of an image with the given description. -/
def imageLabel (alt : Text) : Text :=
  if alt.isEmpty then "[image]".toList else "[image: ".toList ++ alt ++ [']']

/-- Lays out an image as a line with its label. An image without a source is passed over. -/
def addImage (flow : Flow) (settings : Settings) (attributes : List Attribute) : Flow :=
  match Attribute.nonempty? attributes "src".toList with
  | none => flow
  | some source =>
    let flow := flow.newLine
    let indent := flow.indent settings
    let alt := Text.squeeze ((Attribute.find? attributes "alt".toList).getD [])
    let line := indent ++ imageLabel alt
    let image : Image := ⟨flow.lineIndex, indent.length, line.length, source, alt⟩
    let flow := flow.commitBlock line Group.image
    newLine { flow with page := { flow.page with images := flow.page.images ++ [image] } }

/-- The greatest width of a horizontal rule. -/
def maxRuleWidth : Int := 60

/-- Lays out a horizontal rule over the room after the indentation. -/
def addRule (flow : Flow) (settings : Settings) : Flow :=
  let flow := flow.newLine
  let indent := flow.indent settings
  let width := min maxRuleWidth (settings.maxWidth - Text.width indent)
  let flow :=
    if 0 < width then flow.commitBlock (indent ++ List.replicate width.toNat '─') Group.rule
    else flow
  flow.newLine

/-! ## Lists -/

/-- Starts a list item: the line begins with the marker of the item, and wrapped lines continue
under its text. -/
def startItem (flow : Flow) (settings : Settings) : Flow :=
  let flow := flow.newLine
  let indent := flow.indent settings
  let marker := flow.context.nextMarker
  let current := indent ++ marker.1
  let flow :=
    { flow with
      context := marker.2
      current
      continuation := indent ++ List.replicate (Text.width marker.1) ' '
      hasWords := false }
  if marker.1.isEmpty then flow else flow.addSpan indent.length current.length Group.listItem

/-! ## Tables -/

/-- Changes the table that is being collected. -/
def updateTable (flow : Flow) (f : TableDraft → TableDraft) : Flow :=
  { flow with context := { flow.context with table := f flow.context.table } }

/-- Separates the text of a nested table from what comes before it in the cell. -/
def separateCell (flow : Flow) : Flow :=
  if flow.context.table.inRow then flow.updateTable (·.addText [' ']) else flow

/-- The table with a cell or row that is still open finished. -/
def finishDraft (table : TableDraft) : TableDraft :=
  if table.inRow then
    let table := if Text.isAllBlank table.currentCell then table
      else table.update "td".toList true
    table.update "tr".toList true
  else table

/-- Puts the lines of a table on the page, all of them exempt from justification. -/
def addTableLines (flow : Flow) (lines : List Line) : Flow :=
  lines.foldl (fun flow line => (flow.exempt flow.lineIndex).addLine line) flow

/-- Ends the table and lays it out. -/
def flushTable (flow : Flow) (settings : Settings) : Flow :=
  let table := finishDraft flow.context.table
  let flow := (newLine { flow with nestedTables := 0 }).updateTable fun _ => {}
  newLine (flow.addTableLines
    (Table.draw table.headers table.rows settings.maxWidth (flow.indent settings)))

/-- Opens a table. A table inside a table is taken as text of the cell it stands in. -/
def openTable (flow : Flow) : Flow :=
  if flow.context.table.inTable then
    { flow.notice .nestedTable with nestedTables := flow.nestedTables + 1 }
  else
    let flow := flow.newLine
    { flow with context := flow.context.startTable }

/-- Closes a table. -/
def closeTable (flow : Flow) (settings : Settings) : Flow :=
  if flow.nestedTables ≠ 0 then { flow with nestedTables := flow.nestedTables - 1 }
  else if flow.context.table.inTable then flow.flushTable settings
  else flow

/-- Opens or closes a section, row or cell of the table. -/
def changeTablePart (flow : Flow) (name : Text) (closing : Bool) : Flow :=
  if flow.nestedTables ≠ 0 then flow.separateCell
  else flow.updateTable (·.update name closing)

end Flow

end ChapterLayout
