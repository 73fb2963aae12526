import ChapterLayout.Flow.State

/-! # Filling lines with words

Flow text is cut into words, and every word is put on the current line if it fits there after a
space. Otherwise the line is committed, and the word starts the next one after the continuation
indent. A word that is wider than a whole line stands alone on its line.

A piece of a word that follows the last one without a blank between them is glued to it. If the word
becomes too wide by that, it moves to the next line as a whole, together with its spans and
links. -/

namespace ChapterLayout

namespace Flow

/-- Remembers that a word starts at the end of the current line. -/
def startWord (flow : Flow) : Flow :=
  { flow with
    wordStart := flow.current.length
    spanMark := flow.spans.length
    linkMark := flow.page.links.length
    wordMovable := flow.hasWords }

/-- Begins a line with the indentation of the context, unless it is begun already. -/
def beginLine (flow : Flow) (settings : Settings) : Flow :=
  if !flow.hasWords && flow.current.isEmpty then
    { flow with current := flow.indent settings, continuation := flow.indent settings }
  else flow

/-- What separates the next word from the current line: a space, unless the line is empty or ends in
one. -/
def separator (flow : Flow) : Text :=
  match flow.current.getLast? with
  | none => []
  | some c => if Text.isSpace c then [] else [' ']

/-- Makes the current line ready for a word: separated from the last word if the line has room for
it, and otherwise on the next line. -/
def makeRoom (flow : Flow) (settings : Settings) (word : Text) : Flow :=
  let required := Text.width flow.current + flow.separator.length + Text.width word
  if settings.maxWidth < required && flow.hasWords then
    { flow.commit with current := flow.continuation }
  else { flow with current := flow.current ++ flow.separator }

/-- Puts a word at the end of the current line, with the spans and links of the styles in force. -/
def place (flow : Flow) (word : Text) : Flow :=
  let current := flow.current ++ word
  let emitted := emitWord flow.styles.active flow.lineIndex flow.current.length current.length
  { flow with
    current
    hasWords := true
    spans := flow.spans ++ emitted.1
    page := { flow.page with links := flow.page.links ++ emitted.2 } }

/-- The record on another line, with its columns moved by `shift`. -/
def relocate {ρ : Type} [Positioned ρ] (onLine : ρ → Int → ρ) (line shift : Int) (record : ρ) : ρ :=
  Positioned.withColumns (onLine record line) (Positioned.startCol record + shift)
    (Positioned.endCol record + shift)

/-- Moves the last word to the next line if it does not fit and is not alone on its line. -/
def fitWord (flow : Flow) (settings : Settings) : Flow :=
  if (Text.width flow.current : Int) ≤ settings.maxWidth || !flow.wordMovable then flow
  else
    let word := flow.current.drop flow.wordStart
    let movedSpans := flow.spans.drop flow.spanMark
    let movedLinks := flow.page.links.drop flow.linkMark
    let broken : Flow :=
      commit { flow with
        current := Text.trimRight Text.isSpace (flow.current.take flow.wordStart)
        spans := flow.spans.take flow.spanMark
        page := { flow.page with links := flow.page.links.take flow.linkMark } }
    let opened := startWord { broken with current := broken.continuation }
    let line : Int := opened.lineIndex
    let shift : Int := (opened.wordStart : Int) - flow.wordStart
    { opened with
      current := opened.current ++ word
      hasWords := true
      spans := opened.spans ++ movedSpans.map (relocate (fun r line => { r with line }) line shift)
      page := { opened.page with
        links := opened.page.links ++
          movedLinks.map (relocate (fun r line => { r with line }) line shift) } }

/-- Lays out one word. A glued one continues the last word if there is one on the line. -/
def addWord (flow : Flow) (settings : Settings) (word : Text) (glue : Bool := false) : Flow :=
  let word := flow.pendingMark ++ word
  let glue := glue && flow.hasWords
  let flow := beginLine { flow with pendingMark := [] } settings
  if glue then (flow.place word).fitWord settings
  else ((flow.makeRoom settings word).startWord).place word

/-- Lays out words that are separated by blanks. -/
def addWords (flow : Flow) (settings : Settings) (words : List Text) : Flow :=
  words.foldl (fun flow word => flow.addWord settings word) flow

/-- Whether a text begins with a blank. -/
def startsBlank (s : Text) : Bool :=
  match s.head? with
  | some c => Text.isFlowBlank c
  | none => false

/-- Whether a text ends in a blank. -/
def endsBlank (s : Text) : Bool :=
  match s.getLast? with
  | some c => Text.isFlowBlank c
  | none => false

/-- Lays out flow text. Its first word is glued to the last one if no blank stands between them. -/
def addText (flow : Flow) (settings : Settings) (s : Text) : Flow :=
  if s.isEmpty then flow
  else
    match Text.words Text.isFlowBlank s with
    | [] => { flow with glue := false }
    | word :: words =>
      let flow := flow.addWord settings word (flow.glue && !startsBlank s)
      { flow.addWords settings words with glue := !endsBlank s }

end Flow

end ChapterLayout
