import ChapterLayout.Excerpt.Position
import ChapterLayout.Text.Slice

/-! # Excerpts

An excerpt quotes text of a page and keeps some of the text around it. `Excerpt.capture` makes
one from a selection. -/

namespace ChapterLayout

/-- A quote with the text around it, and what the reader added. -/
structure Excerpt where
  text : Text
  contextBefore : Text := []
  contextAfter : Text := []
  color : Text := "yellow".toList
  note : Option Text := none
  /-- The name given to the excerpt where it is kept. -/
  id : Option Text := none
  deriving DecidableEq, Repr

namespace Excerpt

/-- The number of characters of context kept on each side. -/
def defaultContext : Int := 30

/-- The first and the last offset of a selection, moved into the text. -/
def bounds (lines : List Line) (range : TextRange) : Nat × Nat :=
  let length : Int := (Text.joinLines lines).length
  let start := min (max (Offset.toOffset lines range.startLine range.startCol) 0) length
  let stop := min (max (Offset.toOffset lines range.endLine range.endCol) start) length
  (start.toNat, stop.toNat)

/-- The offsets of a selection without the blanks at its ends. -/
def trimBounds (s : Text) (start stop : Nat) : Nat × Nat :=
  let selected := (s.take stop).drop start
  let start := start + (selected.takeWhile Text.isBlank).length
  let visible := selected.dropWhile Text.isBlank
  (start, start + (Text.trimRight Text.isBlank visible).length)

/-- The excerpt of a selection, with `contextChars` characters of context on each side. -/
def capture (lines : List Line) (range : TextRange) (contextChars : Int := defaultContext)
    (color : Text := "yellow".toList) (note : Option Text := none) : Excerpt :=
  let s := Text.joinLines lines
  let whole := bounds lines range
  let (start, stop) := trimBounds s whole.1 whole.2
  { text := (s.take stop).drop start
    contextBefore := Slice.cut s (max ((start : Int) - contextChars) 0) start
    contextAfter := Slice.cut s stop (stop + contextChars)
    color
    note }

end Excerpt

end ChapterLayout
