import ChapterLayout.Excerpt.Position

/-! # Finding a quote again

A quote is looked for in the lines of a page with every run of blanks counted as one space on both
sides, so that it is found after the text was wrapped anew. Of several occurrences the one counts
that more of the stored context surrounds, and of equals the first. `findRange?` gives its
position. -/

namespace ChapterLayout

namespace Quote

/-- The text with every run of blanks as one space, each character with its index in the text. The
text starts at `index`, and `afterBlank` tells whether a blank stands before it. -/
def locate (afterBlank : Bool) (index : Nat) : Text → List (Char × Nat)
  | [] => []
  | c :: s =>
    if Text.isBlank c then
      if afterBlank then locate true (index + 1) s else (' ', index) :: locate true (index + 1) s
    else (c, index) :: locate false (index + 1) s

/-- The length of the longest common start of two texts. -/
def commonStart : Text → Text → Nat
  | c :: s, d :: t => if c == d then commonStart s t + 1 else 0
  | _, _ => 0

/-- An occurrence of a quote: where it starts, and how much of the context surrounds it. -/
structure Occurrence where
  start : Nat
  before : Nat
  after : Nat
  deriving DecidableEq, Repr

namespace Occurrence

/-- How many characters of the context surround the occurrence. -/
def score (o : Occurrence) : Nat := o.before + o.after

/-- The first of the occurrences with the greatest score. -/
def best? : List Occurrence → Option Occurrence
  | [] => none
  | o :: rest =>
    match best? rest with
    | none => some o
    | some p => if o.score < p.score then some p else some o

end Occurrence

/-- What is looked for, with every run of blanks as one space. -/
structure Query where
  /-- The quote without blanks at its ends. -/
  quote : Text
  before : Text
  after : Text

namespace Query

/-- The query for a quote and the text around it. -/
def ofText (quote before after : Text) : Query :=
  ⟨Text.trim (Text.collapse quote), Text.collapse before, Text.collapse after⟩

/-- The occurrences of the quote in the rest of a text of which `passed`, reversed, comes before. -/
def occurrencesAfter (query : Query) (start : Nat) (passed : Text) : Text → List Occurrence
  | [] => []
  | c :: s =>
    let rest := query.occurrencesAfter (start + 1) (c :: passed) s
    if query.quote.isPrefixOf (c :: s) then
      ⟨start, commonStart passed query.before.reverse,
        commonStart ((c :: s).drop query.quote.length) query.after⟩ :: rest
    else rest

/-- Whether all of the context surrounds the occurrence. -/
def isComplete (query : Query) (o : Occurrence) : Bool :=
  query.before.length ≤ o.before && query.after.length ≤ o.after

/-- The occurrence that counts. If `strict` holds, only those count that all of the context
surrounds. -/
def choose? (query : Query) (haystack : Text) (strict : Bool) : Option Occurrence :=
  Occurrence.best?
    ((query.occurrencesAfter 0 [] haystack).filter fun o => !strict || query.isComplete o)

end Query

end Quote

/-- The range of a quote in the lines of a page, if it is found. -/
def findRange? (lines : List Line) (quote : Text) (before : Text := []) (after : Text := [])
    (strict : Bool := false) : Option TextRange := do
  let query := Quote.Query.ofText quote before after
  if query.quote.isEmpty then none
  let located := Quote.locate false 0 (Text.joinLines lines)
  let occurrence ← query.choose? (located.map (·.1)) strict
  let first ← located[occurrence.start]?
  let last ← located[occurrence.start + query.quote.length - 1]?
  let start := Offset.ofOffset lines first.2
  let stop := Offset.ofOffset lines last.2
  return ⟨start.1, start.2, stop.1, stop.2 + 1⟩

end ChapterLayout
