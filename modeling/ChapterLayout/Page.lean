import ChapterLayout.Justify.ColumnMap

/-! # The laid-out chapter

A page holds the lines of a chapter and everything that is recorded about them: the lines that keep
their spacing, the lines to be centred, highlight spans, links, images, anchors and headings, and
the column maps of the lines whose words were spread. -/

namespace ChapterLayout

/-- A set of line numbers, ascending. -/
abbrev LineSet := List Int

namespace LineSet

/-- The set with one more number. -/
def insert (i : Int) : LineSet → LineSet
  | [] => [i]
  | j :: set => if i < j then i :: j :: set else if i = j then j :: set else j :: insert i set

/-- The set of the numbers in a list. -/
def ofList (l : List Int) : LineSet := l.foldl (fun set i => insert i set) []

end LineSet

/-- A heading with its level and the line it starts on. -/
structure Heading where
  level : Int
  text : Text
  line : Int
  deriving DecidableEq, Repr

/-- A laid-out chapter. -/
structure Page where
  lines : List Line := []
  /-- The lines whose words are never spread. -/
  noJustify : LineSet := []
  /-- The lines to be centred. -/
  centered : LineSet := []
  highlights : List Span := []
  links : List Link := []
  images : List Image := []
  /-- The line of every anchor, under its name. -/
  anchors : List (Text × Int) := []
  headings : List Heading := []
  /-- The column maps of the lines whose words were spread, by ascending line. -/
  columnMaps : List (Int × ColumnMap) := []
  deriving DecidableEq, Repr

/-- A line with the way it is shown. -/
structure ShownLine where
  text : Line
  noJustify : Bool
  centered : Bool
  deriving DecidableEq, Repr

namespace Page

/-- The line of an anchor. -/
def anchor? (page : Page) (name : Text) : Option Int := page.anchors.lookup name

/-- The column map of a line whose words were spread. -/
def columnMap? (page : Page) (line : Int) : Option ColumnMap := page.columnMaps.lookup line

/-- The lines with the way they are shown. -/
def shownLines (page : Page) : List ShownLine :=
  page.lines.zipIdx.map fun (text, index) =>
    ⟨text, page.noJustify.contains (index : Int), page.centered.contains (index : Int)⟩

/-- The page with every record moved into its line and without empty highlights. -/
def clamp (page : Page) : Page :=
  { page with
    highlights := clampSpans page.lines page.highlights
    links := clampRecords page.lines page.links
    images := clampRecords page.lines page.images }

end Page

end ChapterLayout
