import ChapterLayout.Excerpt.Store
import ChapterLayout.Limits
import ChapterLayout.Page
import ChapterLayout.Text.Width

/-! # Drawing a page

A page is drawn by requests to a surface: its lines first, and then highlights and virtual text,
which is shown between the columns of a line without being part of it. `draw` lists the requests for
a page with its excerpts. No request leaves its line. -/

namespace ChapterLayout

/-- A request to a surface. -/
inductive DrawRequest where
  /-- Shows new lines and forgets all that was drawn on the old ones. -/
  | lines (lines : List Line)
  /-- Paints columns of a line with a group. -/
  | highlight (line startCol endCol : Int) (group : Group)
  /-- Shows text before a column of a line. -/
  | virtualText (line col : Int) (s : Text) (group : Group)
  deriving DecidableEq, Repr

namespace Drawing

/-- The mark after an excerpt that carries a note. -/
def noteMark : Text := ['●']

/-- The highlight over columns of a line as far as they exist, if any do. -/
def paint? (lines : List Line) (line startCol endCol : Int) (group : Group) :
    Option DrawRequest :=
  match lineAt? lines line with
  | none => none
  | some text =>
    let startCol := clampColumn startCol text.length
    let endCol := clampColumn endCol text.length
    if startCol < endCol then some (.highlight line startCol endCol group) else none

/-- The paddings of the centred lines that exist, each with its line. -/
def paddings (page : Page) (width : Int) : List (Int × Int) :=
  page.centered.filterMap fun index =>
    (lineAt? page.lines index).map fun line => (index, Text.centerPadding line width)

/-- The requests that centre lines. -/
def centering (page : Page) (width : Int) : List DrawRequest :=
  ((paddings page width).filter (·.2 ≠ 0)).map fun (index, padding) =>
    .virtualText index 0 (Text.spaces padding) Group.plain

/-- The requests for the highlights of the page. -/
def highlighting (page : Page) : List DrawRequest :=
  page.highlights.filterMap fun span =>
    paint? page.lines span.line span.startCol span.endCol span.group

/-- The highlight of a range on one of its lines. -/
def paintRange? (lines : List Line) (range : TextRange) (group : Group) (index : Int)
    (line : Line) : Option DrawRequest :=
  if range.startLine ≤ index ∧ index ≤ range.endLine then
    paint? lines index (if index = range.startLine then range.startCol else 0)
      (if index = range.endLine then range.endCol else line.length) group
  else none

/-- The highlights of a range, line by line. -/
def paintRange (lines : List Line) (range : TextRange) (group : Group) : List DrawRequest :=
  lines.zipIdx.filterMap fun (line, index) => paintRange? lines range group index line

/-- The mark of a note after the last character of a range, if its last line exists. -/
def markNote? (lines : List Line) (range : TextRange) (note : Option Text) : Option DrawRequest :=
  if note.all (·.isEmpty) then none
  else
    (lineAt? lines range.endLine).map fun line =>
      .virtualText range.endLine (clampColumn range.endCol line.length) noteMark
        Group.noteIndicator

/-- The requests for an excerpt. -/
def marking (lines : List Line) (entry : ResolvedExcerpt) : List DrawRequest :=
  match entry.range with
  | none => []
  | some range =>
    paintRange lines range (Group.excerpt entry.excerpt.color) ++
      (markNote? lines range entry.excerpt.note).toList

end Drawing

/-- The requests that draw a page of the given width with its excerpts. -/
def draw (page : Page) (width : Int) (excerpts : List ResolvedExcerpt := []) :
    List DrawRequest :=
  .lines page.lines :: Drawing.centering page width ++ Drawing.highlighting page ++
    excerpts.flatMap (Drawing.marking page.lines)

/-- The requests that draw a page, unless a padding is too long to be made. -/
def draw? (page : Page) (width : Int) (excerpts : List ResolvedExcerpt := []) :
    Except LimitError (List DrawRequest) := do
  LimitError.checkCopies ((Drawing.paddings page width).map (·.2))
  return draw page width excerpts

end ChapterLayout
