import ChapterLayout.Style.Frame

/-! # Highlight spans, links and images

What is recorded about columns of a finished line. `emitWord` gives the spans and links of one word,
`mergeSpans` joins the spans of a line and group that overlap or are at most one column apart, and
`clampRecords` moves records into their lines. -/

namespace ChapterLayout

/-- The columns from `startCol` up to, and not including, `endCol` of a line, painted with a
group. -/
structure Span where
  line : Int
  startCol : Int
  endCol : Int
  group : Group
  deriving DecidableEq, Repr

/-- A link over columns of a line. -/
structure Link where
  line : Int
  startCol : Int
  endCol : Int
  href : Text
  deriving DecidableEq, Repr

/-- An image whose label stands in columns of a line. -/
structure Image where
  line : Int
  startCol : Int
  endCol : Int
  source : Text
  alt : Text
  deriving DecidableEq, Repr

/-- Records that stand in columns of a line. -/
class Positioned (ρ : Type) where
  line : ρ → Int
  startCol : ρ → Int
  endCol : ρ → Int
  /-- The record at other columns of its line. -/
  withColumns : ρ → (startCol endCol : Int) → ρ

instance : Positioned Span where
  line r := r.line
  startCol r := r.startCol
  endCol r := r.endCol
  withColumns r startCol endCol := { r with startCol, endCol }

instance : Positioned Link where
  line r := r.line
  startCol r := r.startCol
  endCol r := r.endCol
  withColumns r startCol endCol := { r with startCol, endCol }

instance : Positioned Image where
  line r := r.line
  startCol r := r.startCol
  endCol r := r.endCol
  withColumns r startCol endCol := { r with startCol, endCol }

/-! ## Emission -/

/-- The group a mark paints a word with; a link without a target paints nothing. -/
def Mark.group? : Mark → Option Group
  | .style kind => kind.group?
  | .link href => match href with
    | none => none
    | some href => if href.isEmpty then none else some Group.underline
  | .classGroup group => if group.isEmpty then none else some group

/-- The target a mark links a word to. -/
def Mark.target? : Mark → Option Text
  | .link (some href) => if href.isEmpty then none else some href
  | _ => none

/-- The spans and links of one word under the given frames. -/
def emitWord (frames : List Frame) (line startCol endCol : Int) : List Span × List Link :=
  (frames.filterMap fun f => f.mark.group?.map (⟨line, startCol, endCol, ·⟩),
    frames.filterMap fun f => f.mark.target?.map (⟨line, startCol, endCol, ·⟩))

/-! ## Merging -/

/-- Lexicographic comparison of two texts by code points. -/
def compareText (s t : Text) : Ordering := compareOfLessAndEq s t

/-- The order in which spans are merged: by line, group, start and end. -/
def Span.compareByGroup (a b : Span) : Ordering :=
  (compare a.line b.line).then <| (compareText a.group b.group).then <|
    (compare a.startCol b.startCol).then (compare a.endCol b.endCol)

/-- The order of merged spans: by line, start, end and group. -/
def Span.compareByColumn (a b : Span) : Ordering :=
  (compare a.line b.line).then <| (compare a.startCol b.startCol).then <|
    (compare a.endCol b.endCol).then (compareText a.group b.group)

/-- Whether `next`, which does not start before `current`, joins it: both are of the same line and
group, and at most one column lies between them. -/
def Span.joins (current next : Span) : Bool :=
  next.line == current.line && next.group == current.group && next.startCol ≤ current.endCol + 1

/-- The span `current` joined with the spans after it as far as they join. -/
def mergeInto (current : Span) : List Span → List Span
  | [] => [current]
  | next :: spans =>
    if current.joins next then
      mergeInto { current with endCol := max current.endCol next.endCol } spans
    else current :: mergeInto next spans

/-- The fewest spans that cover the given ones, where spans of one line and group that are at most
one column apart are joined. -/
def mergeSpans (spans : List Span) : List Span :=
  match spans.mergeSort fun a b => (a.compareByGroup b).isLE with
  | [] => []
  | first :: rest => (mergeInto first rest).mergeSort fun a b => (a.compareByColumn b).isLE

/-! ## Clamping -/

/-- The column next to `col` in a line of the given length. -/
def clampColumn (col length : Int) : Int := min (max col 0) length

/-- The line of a page with the given number, if it exists. -/
def lineAt? (lines : List Line) (index : Int) : Option Line :=
  if index < 0 then none else lines[index.toNat]?

/-- The record moved into its line, if that line exists. -/
def clampRecord? {ρ : Type} [Positioned ρ] (lines : List Line) (record : ρ) : Option ρ :=
  (lineAt? lines (Positioned.line record)).map fun line =>
    let startCol := clampColumn (Positioned.startCol record) line.length
    let endCol := clampColumn (Positioned.endCol record) line.length
    Positioned.withColumns record startCol (max startCol endCol)

/-- The records on lines that exist, moved into their lines. -/
def clampRecords {ρ : Type} [Positioned ρ] (lines : List Line) (records : List ρ) : List ρ :=
  records.filterMap (clampRecord? lines)

/-- The spans moved into their lines, without those that become empty. -/
def clampSpans (lines : List Line) (spans : List Span) : List Span :=
  (clampRecords lines spans).filter fun span => span.startCol < span.endCol

end ChapterLayout
