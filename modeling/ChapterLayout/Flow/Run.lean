import ChapterLayout.Flow.Tag

/-! # Laying out a chapter

`Flow.feed` lays out one token and `Flow.finish` completes the page. `Flow.run` lays out a list of
tokens from the start.

The layout itself always has a result. Only an indentation beyond the limits of the machine cannot
be made; `Flow.step?` is a step of the layout that checks for it, and `Flow.makesIndent` says which
steps make an indentation at all. -/

namespace ChapterLayout

namespace Flow

/-! ## Tokens -/

/-- Lays out text where the open blocks have a use for it: in a table it goes to the open cell, and
in a heading it is also collected for the list of headings. -/
def feedText (flow : Flow) (settings : Settings) (s : Text) : Flow :=
  let context := flow.context
  if context.rawDepth ≠ 0 || (context.inHead && !context.inTitle) then flow
  else
    let flow :=
      if context.inHeading then
        flow.updateContext fun c => { c with headingText := c.headingText ++ s }
      else flow
    if context.table.inTable then
      if context.table.inRow then flow.updateTable (·.addText s) else flow
    else if context.inPre then flow.addPre settings s
    else flow.addText settings s

/-- Lays out one token. -/
def feed (flow : Flow) (settings : Settings) : Token → Flow
  | .text s => flow.feedText settings s
  | .opening name attributes => flow.openTag settings name attributes
  | .closing name => flow.closeTag settings name
  | .empty name attributes => flow.emptyTag settings name attributes

/-- Lays out tokens one after the other. -/
def feedAll (flow : Flow) (settings : Settings) (tokens : List Token) : Flow :=
  tokens.foldl (fun flow token => flow.feed settings token) flow

/-! ## The end of a chapter -/

/-- Completes what is pending: a line of preformatted text, a table, the current line. -/
def flush (flow : Flow) (settings : Settings) : Flow :=
  let flow := if flow.context.inPre && flow.preLineOpen then flow.commitPre settings else flow
  let flow := if flow.context.table.inTable then flow.flushTable settings else flow
  if flow.current.isEmpty then flow else flow.commit

/-- The lines without the blank ones at the end. -/
def dropTrailingBlanks (lines : List Line) : List Line :=
  (lines.reverse.dropWhile (·.isEmpty)).reverse

/-- Removes the blank lines at the end of the page and moves the anchors behind its last line
there. -/
def trimPage (flow : Flow) : Flow :=
  let lines := dropTrailingBlanks flow.page.lines
  let lastLine : Int := (lines.length - 1 : Nat)
  { flow with page := { flow.page with
      lines
      anchors := flow.page.anchors.map fun (name, line) => (name, min line lastLine) } }

/-- A notice on elements and blocks that are still open. -/
def unclosed? (flow : Flow) : Option Notice :=
  let openBlocks := !flow.context.isEmpty
  let elements := flow.styles.elements.length
  if openBlocks || elements ≠ 0 then some (.unclosed elements openBlocks) else none

/-- Completes the page. The layout may go on afterwards. -/
def finish (flow : Flow) (settings : Settings) : Flow :=
  let flow := (flow.flush settings).trimPage
  { flow with
    notices := flow.notices ++ flow.unclosed?.toList
    page := { flow.page with highlights := mergeSpans flow.spans } }

/-- The state after a whole chapter. -/
def run (settings : Settings) (tokens : List Token) : Flow :=
  (feedAll {} settings tokens).finish settings

/-! ## Steps -/

/-- A step of a layout run: a token, or one of the operations that tokens are laid out with. -/
inductive Step where
  | token (t : Token)
  | text (s : Text)
  | word (s : Text) (glue : Bool)
  | pre (s : Text)
  | newLine
  | paragraphBreak
  | finish
  deriving DecidableEq, Repr

/-- Takes a step. -/
def step (flow : Flow) (settings : Settings) : Step → Flow
  | .token t => flow.feed settings t
  | .text s => flow.addText settings s
  | .word s glue => flow.addWord settings s glue
  | .pre s => flow.addPre settings s
  | .newLine => flow.newLine
  | .paragraphBreak => flow.paragraphBreak settings
  | .finish => flow.finish settings

/-! ## Indentations beyond the limits -/

/-- Whether the next word begins a line. -/
def beginsLine (flow : Flow) : Bool := !flow.hasWords && flow.current.isEmpty

/-- Whether laying out a flow text makes an indentation. -/
def textMakesIndent (flow : Flow) (s : Text) : Bool :=
  flow.beginsLine && !(Text.words Text.isFlowBlank s).isEmpty

/-- Whether laying out a preformatted text makes an indentation: the first piece does if no line is
open, and all later ones do if they have text or are followed by another one. -/
def preMakesIndent (flow : Flow) (s : Text) : Bool :=
  match flow.prePieces s with
  | [] => false
  | piece :: pieces =>
    (!flow.preLineOpen && !(piece.isEmpty && pieces.isEmpty)) ||
      !(pieces.all (·.isEmpty) && pieces.length ≤ 1)

/-- Whether laying out a token makes an indentation. -/
def tokenMakesIndent (flow : Flow) : Token → Bool
  | .text s =>
    let context := flow.context
    if context.rawDepth ≠ 0 || (context.inHead && !context.inTitle) || context.table.inTable then
      false
    else if context.inPre then flow.preMakesIndent s
    else flow.textMakesIndent s
  | .opening name _ => !flow.context.inHead && TagRole.ofName name == .item
  | .closing name =>
    !flow.context.inHead && TagRole.ofName name == .table && flow.nestedTables == 0 &&
      flow.context.table.inTable
  | .empty name attributes =>
    !flow.context.inHead &&
      ((name == "br".toList && !(flow.context.table.inTable && flow.context.table.inRow) &&
          flow.context.inPre && flow.preMakesIndent ['\n']) ||
        (name == "img".toList && (Attribute.nonempty? attributes "src".toList).isSome) ||
        name == "hr".toList)

/-- Whether a step makes an indentation. -/
def makesIndent (flow : Flow) : Step → Bool
  | .token t => flow.tokenMakesIndent t
  | .text s => flow.textMakesIndent s
  | .word _ _ => flow.beginsLine
  | .pre s => flow.preMakesIndent s
  | .newLine => false
  | .paragraphBreak => false
  | .finish => flow.context.table.inTable

/-- Takes a step, unless it makes an indentation that is too long. -/
def step? (flow : Flow) (settings : Settings) (s : Step) : Except LimitError Flow := do
  if flow.makesIndent s then
    LimitError.checkCopies (flow.context.indentCopies settings.typography)
  return flow.step settings s

/-- Takes steps one after the other. -/
def steps? (flow : Flow) (settings : Settings) (steps : List Step) : Except LimitError Flow :=
  steps.foldlM (fun flow s => flow.step? settings s) flow

/-- The state after a whole chapter, unless an indentation is too long. -/
def run? (settings : Settings) (tokens : List Token) : Except LimitError Flow :=
  steps? {} settings (tokens.map .token ++ [.finish])

end Flow

end ChapterLayout
