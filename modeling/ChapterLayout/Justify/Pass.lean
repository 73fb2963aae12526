import ChapterLayout.Justify.Spread
import ChapterLayout.Number.Binary64
import ChapterLayout.Page

/-! # Justification of a page

`Page.justify` spreads the words of every line that is full enough and is not exempt, and moves the
highlights, links and images on these lines along. A line is full enough if its width is at least
the greatest integer below the product of the page width and the threshold. -/

namespace ChapterLayout

/-- The part of the width that a line has to fill before its words are spread. An integer is kept
apart from a binary64 number, since its product with the width is exact. -/
inductive Threshold where
  | whole (i : Int)
  | fraction (x : Binary64)
  deriving DecidableEq, Repr

namespace Threshold

/-- Nine tenths. -/
def default : Threshold := .fraction (.ratio 9 10)

/-- The least width of a line whose words are spread on a page of the given width. -/
def leastWidth (threshold : Threshold) (maxWidth : Int) : Except LimitError Int :=
  match threshold with
  | whole i => .ok (maxWidth * i)
  | fraction x =>
    match Binary64.ofInt? maxWidth with
    | none => .error .integerTooLarge
    | some w =>
      match w.mul x with
      | .nan => .error .notANumber
      | .infinite _ => .error .infiniteNumber
      | product => .ok (product.floor?.getD 0)

end Threshold

/-- Whether the words of a line may be spread to `maxWidth` columns. -/
def isJustifiable (line : Line) (maxWidth : Int) (threshold : Threshold) :
    Except LimitError Bool :=
  if Text.isAllBlank line then .ok false
  else do
    let least ← threshold.leastWidth maxWidth
    return decide (least ≤ Text.width line) && decide ((Text.width line : Int) < maxWidth)

namespace Page

/-- The line with the given number spread, if it is eligible. -/
def justifyLine? (page : Page) (maxWidth : Int) (threshold : Threshold) (index : Int)
    (line : Line) : Except LimitError (Option (Line × ColumnMap)) :=
  if page.noJustify.contains index then .ok none
  else do
    if ← isJustifiable line maxWidth threshold then spread? line maxWidth else return none

/-- The eligible lines spread, and for every line its column map if it was spread. -/
def justifyLines (page : Page) (maxWidth : Int) (threshold : Threshold) :
    (index : Int) → List Line → Except LimitError (List (Line × Option ColumnMap))
  | _, [] => .ok []
  | index, line :: lines => do
    let spread ← page.justifyLine? maxWidth threshold index line
    let rest ← page.justifyLines maxWidth threshold (index + 1) lines
    return match spread with
      | some (line, map) => (line, some map) :: rest
      | none => (line, none) :: rest

/-- The maps among those of the lines from number `index` on, each with its line. -/
def numberMaps : (index : Int) → List (Option ColumnMap) → List (Int × ColumnMap)
  | _, [] => []
  | index, some map :: maps => (index, map) :: numberMaps (index + 1) maps
  | index, none :: maps => numberMaps (index + 1) maps

/-- The record moved along with its line. -/
def moveRecord {ρ : Type} [Positioned ρ] (maps : List (Int × ColumnMap)) (record : ρ) : ρ :=
  match maps.lookup (Positioned.line record) with
  | some map => map.move record
  | none => record

/-- The page with every eligible line spread to `maxWidth` columns. -/
def justify (page : Page) (maxWidth : Int) (threshold : Threshold := .default) :
    Except LimitError Page := do
  let spread ← page.justifyLines maxWidth threshold 0 page.lines
  let maps := numberMaps 0 (spread.map (·.2))
  return { page with
    lines := spread.map (·.1)
    highlights := page.highlights.map (moveRecord maps)
    links := page.links.map (moveRecord maps)
    images := page.images.map (moveRecord maps)
    columnMaps := maps }

end Page

end ChapterLayout
