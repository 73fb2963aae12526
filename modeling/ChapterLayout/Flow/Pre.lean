import ChapterLayout.Flow.State

/-! # Preformatted text

Preformatted text is laid out line by line as it stands, every line after the indentation of the
context and highlighted as code. A line break directly after the opening tag is dropped, and a last
line without text is not begun. -/

namespace ChapterLayout

namespace Flow

/-- Commits the line of preformatted text, also if it is empty but for its indentation. -/
def commitPre (flow : Flow) (settings : Settings) : Flow :=
  let current := if flow.preLineOpen then flow.current else flow.indent settings
  let flow := { flow with current }
  let flow := if current.isEmpty then flow else flow.addSpan 0 current.length Group.code
  { flow.commit with preLineOpen := false }

/-- Adds a piece of one line of preformatted text. -/
def addPiece (flow : Flow) (settings : Settings) (piece : Text) : Flow :=
  if piece.isEmpty then flow
  else
    let start := if flow.preLineOpen then flow.current else flow.indent settings
    { flow with current := start ++ piece, preLineOpen := true }

/-- The text without the line break at its start. -/
def dropFirstBreak : Text → Text
  | '\r' :: '\n' :: s => s
  | '\n' :: s => s
  | s => s

/-- What is laid out of a preformatted text: all of it, but for the line break that a fresh block
starts with. -/
def prePieces (flow : Flow) (s : Text) : List Text :=
  Text.splitOn '\n' (Text.unifyNewlines (if flow.preFresh then dropFirstBreak s else s))

/-- Lays out preformatted text. -/
def addPre (flow : Flow) (settings : Settings) (s : Text) : Flow :=
  let pieces := flow.prePieces s
  let flow := { flow with preFresh := flow.preFresh && s.isEmpty }
  match pieces with
  | [] => flow
  | piece :: pieces =>
    pieces.foldl (fun flow piece => (flow.commitPre settings).addPiece settings piece)
      (flow.addPiece settings piece)

end Flow

end ChapterLayout
