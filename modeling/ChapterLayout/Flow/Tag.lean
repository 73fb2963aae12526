import ChapterLayout.Block.TagRole
import ChapterLayout.Flow.Block
import ChapterLayout.Flow.Pre
import ChapterLayout.Flow.Word

/-! # Tags

What opening, closing and empty tags do to the state. Every tag first acts on the blocks by its
role, and then on the stack of open elements. A class that is mapped to the title group opens a
title, which ends with its element. Inside the head of a document only its title counts, and neither
tables nor elements with raw content are put on the stack. -/

namespace ChapterLayout

namespace Flow

/-- Records the anchor that a tag sets on the current line. The first anchor of a name counts. -/
def recordAnchor (flow : Flow) (attributes : List Attribute) : Flow :=
  match Attribute.nonempty? attributes "id".toList with
  | none => flow
  | some name =>
    if (flow.page.anchor? name).isSome then flow
    else
      { flow with page := { flow.page with
          anchors := flow.page.anchors ++ [(name, (flow.lineIndex : Int))] } }

/-- Changes the open blocks. -/
def updateContext (flow : Flow) (f : BlockContext → BlockContext) : Flow :=
  { flow with context := f flow.context }

/-- Whether the head of the document hides a tag: all but the head itself and the title. -/
def hides (flow : Flow) (role : TagRole) : Bool :=
  flow.context.inHead && role != .head && role != .title

/-! ## Opening tags -/

/-- Opens the block a tag stands for. -/
def openBlock (flow : Flow) (settings : Settings) : TagRole → Flow
  | .head => flow.updateContext ({ · with inHead := true })
  | .title => flow.newLine.newLine.updateContext ({ · with inTitle := true })
  | .list ordered => flow.newLine.updateContext (·.enterList ordered)
  | .item => flow.startItem settings
  | .quote => flow.newLine.updateContext (·.enterQuote)
  | .pre =>
    { flow.newLine.updateContext ({ · with inPre := true }) with
      preFresh := true, preLineOpen := false }
  | .code =>
    if flow.context.inPre then flow
    else { flow with codeDepth := flow.codeDepth + 1, pendingMark := ['\x60'] }
  | .description => flow.newLine.updateContext ({ · with inDescription := true })
  | .heading level =>
    let flow := flow.newLine.updateContext ({ · with headingLevel := level, headingText := [] })
    { flow with headingLine := flow.lineIndex }
  | .paragraph => flow.newLine
  | .block => flow.newLine
  | _ => flow

/-- Puts an element on the stack. -/
def pushElement (flow : Flow) (settings : Settings) (name : Text) (attributes : List Attribute) :
    Flow :=
  { flow with
    styles := flow.styles.push name attributes settings.classStyles
    notices := flow.notices ++
      (Frame.unmappedClasses attributes settings.classStyles).map .unmappedClass }

/-- Whether a class of the tag opens a title. -/
def opensTitle (settings : Settings) (attributes : List Attribute) : Bool :=
  ((Frame.classes attributes).filterMap (List.lookup · settings.classStyles)).contains Group.title

/-- Opens a title that ends with the element put on the stack last. -/
def openTitle (flow : Flow) : Flow :=
  flow.newLine.newLine.updateContext
    ({ · with inTitle := true, titleSerial := some flow.styles.opened })

/-- Lays out an opening tag. -/
def openTag (flow : Flow) (settings : Settings) (name : Text) (attributes : List Attribute) :
    Flow :=
  let role := TagRole.ofName name
  if flow.hides role then flow
  else
    match role with
    | .raw => flow.updateContext fun c => { c with rawDepth := c.rawDepth + 1 }
    | .table => flow.openTable.recordAnchor attributes
    | .tablePart => (flow.changeTablePart name false).recordAnchor attributes
    | role =>
      let flow := ((flow.openBlock settings role).recordAnchor attributes).pushElement settings
        name attributes
      if !flow.context.inTitle && opensTitle settings attributes then flow.openTitle else flow

/-! ## Closing tags -/

/-- Ends the title. -/
def closeTitle (flow : Flow) : Flow :=
  (flow.newLine.updateContext ({ · with inTitle := false, titleSerial := none })).newLine

/-- Ends inline code with its mark, unless it holds no word. -/
def closeCode (flow : Flow) (settings : Settings) : Flow :=
  if flow.codeDepth = 0 then flow
  else
    let flow := { flow with codeDepth := flow.codeDepth - 1 }
    if !flow.pendingMark.isEmpty then { flow with pendingMark := [] }
    else if flow.hasWords then
      let column := flow.current.length
      ({ flow.addSpan column (column + 1) Group.code with
        current := flow.current ++ ['\x60'] }).fitWord settings
    else flow

/-- Ends the heading and records it, unless it holds no word. -/
def closeHeading (flow : Flow) : Flow :=
  let flow := flow.newLine
  let text := Text.squeeze flow.context.headingText
  let headings :=
    if flow.context.inHeading && !text.isEmpty then
      flow.page.headings ++ [⟨flow.context.headingLevel, text, flow.headingLine⟩]
    else flow.page.headings
  ({ flow with page := { flow.page with headings } }).updateContext
    ({ · with headingLevel := 0, headingText := [] })

/-- Ends preformatted text. -/
def closePre (flow : Flow) (settings : Settings) : Flow :=
  if flow.context.inPre then
    let flow := if flow.preLineOpen then flow.commitPre settings else flow
    (flow.updateContext ({ · with inPre := false })).newLine
  else flow

/-- Closes the block a tag stands for. -/
def closeBlock (flow : Flow) (settings : Settings) : TagRole → Flow
  | .head => flow.updateContext ({ · with inHead := false })
  | .title => if flow.context.inTitle then flow.closeTitle else flow
  | .list _ => flow.newLine.updateContext (·.leaveList)
  | .item => flow.newLine
  | .quote => flow.newLine.updateContext (·.leaveQuote)
  | .pre => flow.closePre settings
  | .code => if flow.context.inPre then flow else flow.closeCode settings
  | .description => flow.newLine.updateContext ({ · with inDescription := false })
  | .heading _ => flow.closeHeading
  | .paragraph => flow.paragraphBreak settings
  | .block => flow.newLine
  | _ => flow

/-- Takes the most recent element of the given name from the stack, and ends the title if that
element opened it. -/
def popElement (flow : Flow) (name : Text) : Flow :=
  match flow.styles.pop? name with
  | none => flow.notice (.unmatchedClosing name)
  | some (serial, styles) =>
    let flow := { flow with styles }
    if flow.context.titleSerial = some serial then flow.closeTitle else flow

/-- Lays out a closing tag. -/
def closeTag (flow : Flow) (settings : Settings) (name : Text) : Flow :=
  let role := TagRole.ofName name
  if flow.hides role then flow
  else
    match role with
    | .raw => flow.updateContext fun c => { c with rawDepth := c.rawDepth - 1 }
    | .table => flow.closeTable settings
    | .tablePart => flow.changeTablePart name true
    | role => (flow.closeBlock settings role).popElement name

/-! ## Empty tags -/

/-- Lays out a line break, which in a cell of a table is a blank. -/
def breakLine (flow : Flow) (settings : Settings) : Flow :=
  if flow.context.table.inTable && flow.context.table.inRow then
    flow.updateTable (·.addText [' '])
  else if flow.context.inPre then flow.addPre settings ['\n']
  else flow.newLine

/-- Lays out an element that is closed in its own tag. -/
def emptyTag (flow : Flow) (settings : Settings) (name : Text) (attributes : List Attribute) :
    Flow :=
  if flow.context.inHead then flow
  else
    let flow :=
      if name == "br".toList then flow.breakLine settings
      else if name == "img".toList then flow.addImage settings attributes
      else if name == "hr".toList then flow.addRule settings
      else if TagRole.breaksLine name then flow.newLine
      else flow
    flow.recordAnchor attributes

end Flow

end ChapterLayout
