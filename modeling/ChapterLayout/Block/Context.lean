import ChapterLayout.Block.Typography
import ChapterLayout.Table.Draft
import ChapterLayout.Limits

/-! # Block context

The nesting of blocks around the current position: lists, quotations, a table, a heading and so on,
kept apart from inline styles. `BlockContext.indent` is the start of every line in that context, and
`BlockContext.nextMarker` numbers the items of the innermost list. -/

namespace ChapterLayout

/-- An open list. -/
structure ListLevel where
  ordered : Bool
  /-- The number of items counted so far; an unordered list counts none. -/
  counter : Nat := 0
  deriving DecidableEq, Repr

/-- The blocks that are open. -/
structure BlockContext where
  /-- The open lists, the innermost one first. -/
  lists : List ListLevel := []
  quoteDepth : Nat := 0
  table : TableDraft := {}
  /-- The level of the open heading, or zero. -/
  headingLevel : Nat := 0
  /-- The text of the open heading so far. -/
  headingText : Text := []
  inPre : Bool := false
  /-- Whether lines are titles, which are centred. -/
  inTitle : Bool := false
  /-- The serial number of the element whose class opened the title. -/
  titleSerial : Option Nat := none
  /-- Whether a definition of a term is open. -/
  inDescription : Bool := false
  /-- Whether the head of the document is open. -/
  inHead : Bool := false
  /-- The number of open elements whose content is not markup. -/
  rawDepth : Nat := 0
  deriving DecidableEq, Repr

namespace BlockContext

/-- Whether a heading is open. -/
def inHeading (context : BlockContext) : Bool := 0 < context.headingLevel

/-- Whether no block is open. -/
def isEmpty (context : BlockContext) : Bool :=
  context.lists.isEmpty && context.quoteDepth == 0 && !context.table.inTable &&
    !context.inHeading && !context.inPre && !context.inTitle && !context.inDescription &&
    !context.inHead && context.rawDepth == 0

/-- Whether lines in this context keep their spacing when others are justified. -/
def keepsSpacing (context : BlockContext) : Bool :=
  context.inHeading || context.inPre || !context.lists.isEmpty || context.inDescription ||
    0 < context.quoteDepth || context.inTitle

/-! ## Indentation -/

/-- The mark of one level of quotation. -/
def quoteBar : Text := ['│', ' ']

/-- The start of every line: a bar for each quotation and the rest of their indentation, the
indentation of the lists, and that of a definition. -/
def indent (context : BlockContext) (typography : Typography) : Text :=
  (if 0 < context.quoteDepth then
      (List.replicate context.quoteDepth quoteBar).flatten ++
        Text.spaces (typography.indentSize - 2)
    else []) ++
  Text.spaces (typography.listIndent * context.lists.length) ++
  (if context.inDescription then Text.spaces typography.indentSize else [])

/-- The counts of spaces that the indentation is made of. -/
def indentCopies (context : BlockContext) (typography : Typography) : List Int :=
  (if 0 < context.quoteDepth then [typography.indentSize - 2] else []) ++
  [typography.listIndent * context.lists.length] ++
  (if context.inDescription then [typography.indentSize] else [])

/-- The indentation, unless it is too long to be made. -/
def indent? (context : BlockContext) (typography : Typography) : Except LimitError Text := do
  LimitError.checkCopies (context.indentCopies typography)
  return context.indent typography

/-! ## Lists -/

/-- The marker of items of unordered lists. -/
def bullet : Text := ['•', ' ']

/-- The context in a new list. -/
def enterList (context : BlockContext) (ordered : Bool) : BlockContext :=
  { context with lists := { ordered } :: context.lists }

/-- The context after the innermost list. -/
def leaveList (context : BlockContext) : BlockContext :=
  { context with lists := context.lists.tail }

/-- The marker of the next item of the innermost list, and the context after it is counted. Outside
lists the marker is empty. -/
def nextMarker (context : BlockContext) : Text × BlockContext :=
  match context.lists with
  | [] => ([], context)
  | level :: outer =>
    if level.ordered then
      let counter := level.counter + 1
      (Text.ofNat counter ++ ['.', ' '], { context with lists := { level with counter } :: outer })
    else (bullet, context)

/-! ## Quotations and tables -/

/-- The context in a new quotation. -/
def enterQuote (context : BlockContext) : BlockContext :=
  { context with quoteDepth := context.quoteDepth + 1 }

/-- The context after the innermost quotation. -/
def leaveQuote (context : BlockContext) : BlockContext :=
  { context with quoteDepth := context.quoteDepth - 1 }

/-- The context in a new table. -/
def startTable (context : BlockContext) : BlockContext :=
  { context with table := { inTable := true } }

end BlockContext

end ChapterLayout
