import ChapterLayout.Surface.Appearance
import ChapterLayout.Surface.Drawing

/-! # The terminal as a surface

A terminal keeps the lines it shows and what was drawn on them, and renders them as styled text, in
the codes of a given styler. Of two highlights over a column the later one wins where their
attributes conflict. Virtual text stands before its column, or at the end of its line. -/

namespace ChapterLayout

/-- A highlight that was drawn. -/
structure DrawnHighlight where
  line : Int
  startCol : Int
  endCol : Int
  group : Group
  deriving DecidableEq, Repr

/-- A virtual text that was drawn. -/
structure DrawnText where
  line : Int
  col : Int
  text : Text
  group : Group
  deriving DecidableEq, Repr

/-- The state of a terminal. -/
structure Terminal where
  lines : List Line := []
  highlights : List DrawnHighlight := []
  virtualTexts : List DrawnText := []
  deriving DecidableEq, Repr

namespace Terminal

/-- The terminal after a request. -/
def apply (terminal : Terminal) : DrawRequest → Terminal
  | .lines lines => { lines }
  | .highlight line startCol endCol group =>
    { terminal with highlights := terminal.highlights ++ [⟨line, startCol, endCol, group⟩] }
  | .virtualText line col s group =>
    { terminal with virtualTexts := terminal.virtualTexts ++ [⟨line, col, s, group⟩] }

/-- The terminal after requests in order. -/
def applyAll (terminal : Terminal) (requests : List DrawRequest) : Terminal :=
  requests.foldl apply terminal

/-! ## Rendering -/

/-- A piece of text with its appearance. -/
abbrev Styled := Text × Appearance

/-- A column of a line: the virtual text before it, its character, and the character's
appearance. -/
structure Column where
  before : List Styled
  char : Char
  appearance : Appearance

/-- The appearance of a column under highlights of its line. -/
def appearanceAt (highlights : List DrawnHighlight) (col : Int) : Appearance :=
  highlights.foldl (fun appearance h =>
    if h.startCol ≤ col ∧ col < h.endCol then (Appearance.ofGroup h.group).laidOver appearance
    else appearance) .bare

/-- The virtual texts before a column of a line of the given length, those of smaller columns first
and those of one column in the order in which they were drawn. -/
def virtualAt (texts : List DrawnText) (length col : Int) : List Styled :=
  ((texts.mergeSort fun a b => a.col ≤ b.col).filter fun t =>
    clampColumn t.col length == col).map fun t => (t.text, Appearance.ofGroup t.group)

/-- The columns of a line from number `index` on. -/
def columns (highlights : List DrawnHighlight) (texts : List DrawnText) (length : Int) :
    (index : Int) → Line → List Column
  | _, [] => []
  | index, c :: line =>
    ⟨virtualAt texts length index, c, appearanceAt highlights index⟩ ::
      columns highlights texts length (index + 1) line

/-- The pieces of a line after the run `run` of characters of one appearance, up to the virtual text
`last` at its end. A run ends where the appearance changes or virtual text stands. -/
def pieces (run : Text) (appearance : Appearance) (last : List Styled) :
    List Column → List Styled
  | [] => (run, appearance) :: last
  | column :: rest =>
    if column.before.isEmpty && column.appearance == appearance then
      pieces (run ++ [column.char]) appearance last rest
    else
      (run, appearance) :: column.before ++ pieces [column.char] column.appearance last rest

/-- A line of the terminal as styled text. -/
def renderLineWith (style : Styler) (terminal : Terminal) (index : Int) (line : Line) : Text :=
  let highlights := terminal.highlights.filter (·.line == index)
  let texts := terminal.virtualTexts.filter (·.line == index)
  let length : Int := line.length
  (pieces [] .bare (virtualAt texts length length)
    (columns highlights texts length 0 line)).flatMap fun (s, appearance) =>
      style.paint appearance s

/-- The lines of the terminal as styled text. -/
def renderWith (style : Styler) (terminal : Terminal) : List Text :=
  terminal.lines.zipIdx.map fun (line, index) => terminal.renderLineWith style index line

end Terminal

end ChapterLayout
