import ChapterLayout.Excerpt.Capture
import ChapterLayout.Excerpt.Find

/-! # Stored excerpts

Excerpts are stored under a book and a chapter, in order. `Store.resolve` finds those of a chapter
again in the lines of a page, and `excerptAt?` looks up the excerpt at a column. An excerpt
whose quote is not found stays in the list without a range. -/

namespace ChapterLayout

/-- An excerpt with the chapter it belongs to. -/
structure StoredExcerpt where
  book : Text
  chapter : Int
  excerpt : Excerpt
  deriving DecidableEq, Repr

/-- The stored excerpts in the order in which they were stored. -/
abbrev Store := List StoredExcerpt

/-- An excerpt with the range of its quote, if that was found. -/
structure ResolvedExcerpt where
  excerpt : Excerpt
  range : Option TextRange
  deriving DecidableEq, Repr

namespace ResolvedExcerpt

/-- Whether the quote was not found. -/
def isOrphaned (resolved : ResolvedExcerpt) : Bool := resolved.range.isNone

end ResolvedExcerpt

namespace Excerpt

/-- The excerpt with the range of its quote in the lines of a page. -/
def resolve (excerpt : Excerpt) (lines : List Line) (strict : Bool) : ResolvedExcerpt :=
  ⟨excerpt, findRange? lines excerpt.text excerpt.contextBefore excerpt.contextAfter
    strict⟩

end Excerpt

namespace Store

/-- The excerpts of a chapter. -/
def ofChapter (store : Store) (book : Text) (chapter : Int) : List Excerpt :=
  (store.filter fun entry => entry.book == book && entry.chapter == chapter).map (·.excerpt)

/-- The excerpts of a chapter with their ranges in the lines of a page. -/
def resolve (store : Store) (book : Text) (chapter : Int) (lines : List Line)
    (strict : Bool := false) : List ResolvedExcerpt :=
  (store.ofChapter book chapter).map (·.resolve lines strict)

end Store

/-- The first excerpt whose range contains a column of a line. -/
def excerptAt? (resolved : List ResolvedExcerpt) (line col : Int) : Option Excerpt :=
  (resolved.find? fun entry => entry.range.any (·.contains line col)).map (·.excerpt)

end ChapterLayout
