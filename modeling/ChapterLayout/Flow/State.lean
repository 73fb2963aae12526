import ChapterLayout.Block.Context
import ChapterLayout.Notice
import ChapterLayout.Page
import ChapterLayout.Settings.Basic
import ChapterLayout.Style.Stack

/-! # The state of a layout run

Tokens are laid out one after the other on a state that holds the page so far, the open blocks and
elements, and the line that is being filled. This module holds the operations on whole lines:

* `Flow.commit` puts the current line on the page;
* `Flow.newLine` ends the current line, or separates blocks by one blank line;
* `Flow.paragraphBreak` ends a paragraph with the blank lines its spacing asks for.

Spans and links of the page grow at their ends. Those of the last word begin at two marks, so that
they can move to the next line together with the word. -/

namespace ChapterLayout

/-- The state of a layout run. -/
structure Flow where
  page : Page := {}
  context : BlockContext := {}
  styles : Stack := {}
  /-- The line that is being filled. -/
  current : Line := []
  /-- The spans emitted so far, in no particular order. -/
  spans : List Span := []
  /-- The start of the line that a wrapped line continues on. -/
  continuation : Text := []
  /-- Whether the current line holds a word. -/
  hasWords : Bool := false
  /-- Whether a word that follows without a blank belongs to the last one. -/
  glue : Bool := false
  /-- The column where the last word starts. -/
  wordStart : Nat := 0
  /-- The number of spans emitted before the last word. -/
  spanMark : Nat := 0
  /-- The number of links emitted before the last word. -/
  linkMark : Nat := 0
  /-- Whether the last word has another one before it on its line. -/
  wordMovable : Bool := false
  /-- The mark that the next word starts with. -/
  pendingMark : Text := []
  /-- The number of open elements of inline code. -/
  codeDepth : Nat := 0
  /-- Whether a line of preformatted text is being filled. -/
  preLineOpen : Bool := false
  /-- Whether no text of the preformatted block was seen yet. -/
  preFresh : Bool := false
  /-- The line that the open heading starts on. -/
  headingLine : Nat := 0
  /-- The number of tables open inside the table. -/
  nestedTables : Nat := 0
  notices : List Notice := []
  deriving DecidableEq, Repr

namespace Flow

/-- The number that the current line gets on the page. -/
def lineIndex (flow : Flow) : Nat := flow.page.lines.length

/-- The start of a line in the current context. -/
def indent (flow : Flow) (settings : Settings) : Text :=
  flow.context.indent settings.typography

/-- The state with one more notice. -/
def notice (flow : Flow) (n : Notice) : Flow := { flow with notices := flow.notices ++ [n] }

/-- The state with a line added to the page that is not the current one. -/
def addLine (flow : Flow) (line : Line) : Flow :=
  { flow with page := { flow.page with lines := flow.page.lines ++ [line] } }

/-- The state with a span over columns of the current line. -/
def addSpan (flow : Flow) (startCol endCol : Nat) (group : Group) : Flow :=
  { flow with spans := flow.spans ++ [⟨flow.lineIndex, startCol, endCol, group⟩] }

/-- The state with a line of the page exempt from justification. -/
def exempt (flow : Flow) (index : Nat) : Flow :=
  { flow with page := { flow.page with noJustify := flow.page.noJustify.insert index } }

/-! ## Lines -/

/-- Puts the current line on the page. In a context that keeps spacing the line is exempt from
justification, and as a title it is centred and highlighted as a whole. -/
def commit (flow : Flow) : Flow :=
  let index := flow.lineIndex
  { flow with
    page := { flow.page with
      lines := flow.page.lines ++ [flow.current]
      noJustify :=
        if flow.context.keepsSpacing then flow.page.noJustify.insert index
        else flow.page.noJustify
      centered :=
        if flow.context.inTitle then flow.page.centered.insert index else flow.page.centered }
    spans :=
      if flow.context.inTitle then
        flow.spans ++ [⟨index, 0, flow.current.length, Group.title⟩]
      else flow.spans
    current := []
    hasWords := false }

/-- Whether the page has lines and its last line is not blank. -/
def endsInText (flow : Flow) : Bool :=
  match flow.page.lines.getLast? with
  | some line => !line.isEmpty
  | none => false

/-- Ends the current line. If there is none, a blank line is added, unless the page is empty or ends
in a blank line. -/
def newLine (flow : Flow) : Flow :=
  let flow :=
    if !flow.current.isEmpty then flow.commit
    else if flow.endsInText then flow.addLine []
    else flow
  { flow with continuation := [], glue := false }

/-- The number of blank lines at the end of the page. -/
def trailingBlanks (flow : Flow) : Nat :=
  (flow.page.lines.reverse.takeWhile (·.isEmpty)).length

/-- Ends a paragraph: the page ends in as many blank lines as the spacing asks for, unless it is
empty. -/
def paragraphBreak (flow : Flow) (settings : Settings) : Flow :=
  let flow := flow.newLine
  if flow.page.lines.isEmpty then flow
  else
    let missing := settings.typography.paragraphSpacing - flow.trailingBlanks
    { flow with page := { flow.page with
        lines := flow.page.lines ++ List.replicate missing.toNat [] } }

end Flow

end ChapterLayout
