import ChapterLayout.Navigation.Href
import ChapterLayout.Page
import ChapterLayout.Text.Slice

/-! # What a position refers to

Lookups on a laid-out page: the link, image or heading at a position, the line an anchor leads to,
and the footnote that starts there. -/

namespace ChapterLayout

namespace Page

/-- Whether a record covers a column of a line. -/
def covers {ρ : Type} [Positioned ρ] (record : ρ) (line col : Int) : Bool :=
  Positioned.line record == line && decide (Positioned.startCol record ≤ col) &&
    decide (col < Positioned.endCol record)

/-- The first link that covers a column of a line. -/
def linkAt? (page : Page) (line col : Int) : Option Link :=
  page.links.find? (covers · line col)

/-- The first image on a line, or the first that covers the given column of it. -/
def imageAt? (page : Page) (line : Int) : (col : Option Int) → Option Image
  | none => page.images.find? (·.line == line)
  | some col => page.images.find? (covers · line col)

/-- The last heading before the first one beyond a line. -/
def headingAt? (page : Page) (line : Int) : Option Heading :=
  (page.headings.takeWhile (·.line ≤ line)).getLast?

/-- The line that a link target leads to, if its anchor is on the page. -/
def resolveHref? (page : Page) (href : Text) : Except AuthorityError (Option Int) := do
  return (← Href.anchorName? href).bind page.anchor?

/-- The number of lines looked at for a footnote. -/
def footnoteLines : Int := 15

/-- The first paragraph at an anchor, among the given number of lines. -/
def footnote (page : Page) (anchor : Text) (maxLines : Int := footnoteLines) : List Text :=
  match page.anchor? anchor with
  | none => []
  | some start =>
    (((Slice.cut page.lines start (start + maxLines)).dropWhile Text.isAllBlank).takeWhile
      fun line => !Text.isAllBlank line).map Text.trim

end Page

end ChapterLayout
