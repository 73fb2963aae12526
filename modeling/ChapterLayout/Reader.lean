import ChapterLayout.Chapter
import ChapterLayout.Navigation.Lookup
import ChapterLayout.Surface.Terminal

/-! # Reading a chapter

A reader has one chapter open, the page it was laid out to, and excerpts. The page can be laid out
again with other settings, after which the excerpts are found in it anew. -/

namespace ChapterLayout

/-- The state of a reader. -/
structure Reader where
  /-- The markup of the open chapter. -/
  markup : Text := []
  page : Page := {}
  /-- The excerpts that were found last. -/
  resolved : List ResolvedExcerpt := []
  store : Store := []
  deriving DecidableEq, Repr

namespace Reader

/-- Opens a chapter. The page stays until it is laid out. -/
def openChapter (reader : Reader) (markup : Text) : Reader := { reader with markup }

/-- Lays out the open chapter. -/
def render (reader : Reader) (settings : Settings) : Except LimitError Reader := do
  return { reader with page := (← Chapter.render settings reader.markup).page }

/-- Spreads the words of the full lines of the page. -/
def justify (reader : Reader) (maxWidth : Int) (threshold : Threshold := .default) :
    Except LimitError Reader := do
  return { reader with page := ← reader.page.justify maxWidth threshold }

/-- Stores an excerpt. -/
def keep (reader : Reader) (book : Text) (chapter : Int) (excerpt : Excerpt) : Reader :=
  { reader with store := reader.store ++ [⟨book, chapter, excerpt⟩] }

/-- Finds the stored excerpts of a chapter in the page. -/
def resolve (reader : Reader) (book : Text) (chapter : Int) (strict : Bool := false) : Reader :=
  { reader with resolved := reader.store.resolve book chapter reader.page.lines strict }

/-- The requests that draw the page with the excerpts found last. -/
def draw? (reader : Reader) (width : Int) : Except LimitError (List DrawRequest) :=
  ChapterLayout.draw? reader.page width reader.resolved

/-- A column of a line before its words were spread, as a column of the line on the page. -/
def forward (reader : Reader) (line col : Int) : Int :=
  match reader.page.columnMap? line with
  | some map => map.forward col
  | none => col

/-- A column of a line on the page, as a column before the words of the line were spread. -/
def reverse (reader : Reader) (line col : Int) : Int :=
  match reader.page.columnMap? line with
  | some map => map.reverse col
  | none => col

end Reader

end ChapterLayout
