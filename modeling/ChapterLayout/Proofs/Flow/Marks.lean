import ChapterLayout.Proofs.Flow.Word
import ChapterLayout.Proofs.Style.Cells

/-! # The marks of the last word

The spans and links of the last word are those behind two marks, so that they can move together with
the word. `Flow.Marked` says what the marks promise:

* **`marked_startWord`** — a word that starts behind all records sets the marks;
* **`Marked.place`** — placing a piece of the word keeps them. -/

namespace ChapterLayout

namespace Flow

variable {flow : Flow} {word : Text}

/-- The last word and its records start at the marks, and all other records end before it. -/
def Marked (flow : Flow) : Prop :=
  flow.wordStart ≤ flow.current.length ∧
    MarkedAt flow.spans flow.spanMark flow.lineIndex flow.wordStart ∧
    MarkedAt flow.page.links flow.linkMark flow.lineIndex flow.wordStart

/-! ## (1) The records of a word -/

/-- The records of a word stand over its columns. -/
theorem emitWord_columns (frames : List Frame) (line startCol endCol : Int) :
    (∀ r ∈ (emitWord frames line startCol endCol).1,
        Positioned.line r = line ∧ Positioned.startCol r = startCol ∧
          Positioned.endCol r = endCol) ∧
      ∀ r ∈ (emitWord frames line startCol endCol).2,
        Positioned.line r = line ∧ Positioned.startCol r = startCol ∧
          Positioned.endCol r = endCol := by
  constructor
  all_goals
    intro r hr
    obtain ⟨frame, -, hframe⟩ := List.mem_filterMap.1 hr
    obtain ⟨value, -, rfl⟩ := Option.map_eq_some_iff.1 hframe
    exact ⟨rfl, rfl, rfl⟩

/-- A text without the blanks of the layout has no blank of any kind. -/
theorem isSpace_of_letter {s : Text} (h : ∀ c ∈ s, Text.isFlowBlank c = false) :
    ∀ c ∈ s, Text.isSpace c = false := by
  intro c hc
  have := h c hc
  simp only [Text.isFlowBlank, Bool.or_eq_false_iff] at this
  exact this.1

/-- Spans and links are relocated like their words. -/
theorem relocates_span (line shift : Int) :
    Relocates (relocate (fun (r : Span) line => { r with line }) line shift) line shift :=
  fun _ => ⟨rfl, rfl, rfl⟩

/-- A link is relocated by its line and its columns. -/
theorem relocates_link (line shift : Int) :
    Relocates (relocate (fun (r : Link) line => { r with line }) line shift) line shift :=
  fun _ => ⟨rfl, rfl, rfl⟩

/-! ## (2) The marks -/

/-- **A word starts** behind all spans and links, and sets the marks there. -/
theorem marked_startWord (hspans : EndBefore flow.spans flow.lineIndex flow.current.length)
    (hlinks : EndBefore flow.page.links flow.lineIndex flow.current.length) :
    flow.startWord.Marked :=
  ⟨Nat.le_refl _, hspans.markedAt, hlinks.markedAt⟩

/-- **A piece of the word** is placed, and its records belong to the word. -/
theorem Marked.place (h : flow.Marked) (word : Text) : (flow.place word).Marked := by
  obtain ⟨hstart, hspans, hlinks⟩ := h
  obtain ⟨hemitted, hemitted'⟩ := emitWord_columns flow.styles.active flow.lineIndex
    flow.current.length (flow.place word).current.length
  refine ⟨?_, hspans.append fun r hr => ?_, hlinks.append fun r hr => ?_⟩
  · show flow.wordStart ≤ (flow.current ++ word).length
    rw [List.length_append]
    omega
  · obtain ⟨hline, hcol, -⟩ := hemitted r hr
    exact ⟨hline, by rw [hcol]; omega⟩
  · obtain ⟨hline, hcol, -⟩ := hemitted' r hr
    exact ⟨hline, by rw [hcol]; omega⟩

end Flow

end ChapterLayout
