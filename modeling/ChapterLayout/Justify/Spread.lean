import ChapterLayout.Justify.ColumnMap
import ChapterLayout.Limits
import ChapterLayout.Text.Width

/-! # Spreading the words of a line

`spread line maxWidth` widens the gaps between the words of a line until the line takes `maxWidth`
columns. The missing columns are shared out evenly, and what remains goes to the first gaps, one
each. The spaces before the first word stay as they are. -/

namespace ChapterLayout

/-- A maximal run of characters other than spaces, with its first column. -/
structure Run where
  start : Nat
  word : Text
  deriving DecidableEq, Repr

namespace Run

/-- The column just past the run. -/
def stop (run : Run) : Nat := run.start + run.word.length

/-- The runs of a text that starts at the given column. -/
def ofText (column : Nat) : Text → List Run
  | [] => []
  | c :: s =>
    if Text.isSpace c then ofText (column + 1) s
    else match ofText (column + 1) s with
      | next :: runs =>
        if next.start = column + 1 then ⟨column, c :: next.word⟩ :: runs
        else ⟨column, [c]⟩ :: next :: runs
      | [] => [⟨column, [c]⟩]

end Run

/-- The widths of the gaps before the runs that follow the end `stop` of a run. Every gap grows by
`extra`, and each of the first `remainder` gaps by one more. -/
def gapWidths (extra : Int) : (remainder : Nat) → (stop : Nat) → List Run → List Int
  | _, _, [] => []
  | 0, stop, run :: runs => (run.start - stop + extra) :: gapWidths extra 0 run.stop runs
  | remainder + 1, stop, run :: runs =>
    (run.start - stop + extra + 1) :: gapWidths extra remainder run.stop runs

/-- The runs placed from the given column on, each after its gap. -/
def placeRuns : (column : Int) → List (Int × Run) → List PlacedWord
  | _, [] => []
  | column, (gap, run) :: rest =>
    let start := column + gap
    let stop := start + run.word.length
    ⟨run.word, run.start, run.stop, start, stop⟩ :: placeRuns stop rest

/-- The gaps between the words of a line once it takes `maxWidth` columns, together with the words.
The first word has its indentation for a gap. Nothing, if the line has fewer than two words or is
wide enough. -/
def spreadGaps? (line : Line) (maxWidth : Int) : Option (List (Int × Run)) :=
  match Run.ofText 0 line with
  | first :: second :: runs =>
    let missing := maxWidth - Text.width line
    if missing ≤ 0 then none
    else
      let gaps : Int := (second :: runs).length
      let widths := gapWidths (missing / gaps) (missing % gaps).toNat first.stop (second :: runs)
      some ((first.start, first) :: widths.zip (second :: runs))
  | _ => none

/-- A line of the given gaps and words. -/
def spreadText (gaps : List (Int × Run)) : Line :=
  gaps.flatMap fun (gap, run) => Text.spaces gap ++ run.word

/-- The line spread to `maxWidth` columns and its column map. -/
def spread (line : Line) (maxWidth : Int) : Option (Line × ColumnMap) :=
  (spreadGaps? line maxWidth).map fun gaps =>
    (spreadText gaps, ⟨placeRuns 0 gaps, line.length, (spreadText gaps).length⟩)

/-- The line spread to `maxWidth` columns and its column map, unless a gap is too long to be
made. -/
def spread? (line : Line) (maxWidth : Int) : Except LimitError (Option (Line × ColumnMap)) :=
  match spreadGaps? line maxWidth with
  | none => .ok none
  | some gaps => do
    LimitError.checkCopies (gaps.map (·.1))
    return spread line maxWidth

end ChapterLayout
