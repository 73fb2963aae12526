import ChapterLayout.Flow.Run
import ChapterLayout.Proofs.Flow.Feed
import ChapterLayout.Proofs.Text.Collapse

/-! # Lines that show the same text

Two layouts of one chapter break its text at different places and may set blocks apart by different
numbers of blank lines. `SameText p` says that two lists of lines show the same text nevertheless,
up to gaps of class `p`, and that they still will when the blank lines at the end are dropped:

* **`SameText.concat`** — lines that show the same text together with the line below them;
* **`SameText.blanks`** — blank lines at the end show nothing. -/

namespace ChapterLayout

/-- The lines, each ended by a line feed. -/
def Text.ended (lines : List Line) : Text := lines.flatMap (· ++ ['\n'])

/-- Whether two lists of lines show the same text up to gaps of class `p`. -/
structure SameText (p : Char → Bool) (lines lines' : List Line) : Prop where
  isEmpty : lines = [] ↔ lines' = []
  ended : Text.collapseBy p (Text.ended lines) = Text.collapseBy p (Text.ended lines')
  /-- The text of the finished page. -/
  shown : Text.collapseBy p (Text.joinLines (Flow.dropTrailingBlanks lines)) =
    Text.collapseBy p (Text.joinLines (Flow.dropTrailingBlanks lines'))

variable {p : Char → Bool} {lines lines' : List Line} {line line' : Line}

/-! ## (1) One line more -/

/-- No lines make no text. -/
@[simp] theorem Text.ended_nil : ended [] = [] := rfl

/-- The text of lines is that of the first ones and then that of the others. -/
theorem Text.ended_append (lines lines' : List Line) :
    ended (lines ++ lines') = ended lines ++ ended lines' :=
  List.flatMap_append

/-- A line more adds its text and a line feed. -/
theorem Text.ended_concat (lines : List Line) (line : Line) :
    ended (lines ++ [line]) = ended lines ++ (line ++ ['\n']) := by
  rw [ended_append, ended, ended, List.flatMap_singleton]

/-- Joined lines are ended lines but for the end of the last one. -/
theorem Text.joinLines_concat (lines : List Line) (line : Line) :
    joinLines (lines ++ [line]) = ended lines ++ line := by
  induction lines with
  | nil => simp [joinLines]
  | cons l lines ih =>
    obtain ⟨m, ms, hms⟩ : ∃ m ms, lines ++ [line] = m :: ms :=
      List.exists_cons_of_ne_nil (by simp)
    rw [List.cons_append, hms, joinLines_cons_cons, ← hms, ih]
    simp [ended]

/-- The text of lines ends in a line feed. -/
theorem Text.getLast?_ended (h : lines ≠ []) : (Text.ended lines).getLast? = some '\n' := by
  obtain ⟨lines, line, rfl⟩ := (List.eq_nil_or_concat lines).resolve_left h
  rw [List.concat_eq_append, ended_concat, ← List.append_assoc, List.getLast?_concat]

/-- A line with text stays at the end of a page. -/
theorem dropTrailingBlanks_concat (lines : List Line) (h : line ≠ []) :
    Flow.dropTrailingBlanks (lines ++ [line]) = lines ++ [line] := by
  have hempty : line.isEmpty = false := by simpa using h
  simp [Flow.dropTrailingBlanks, hempty]

/-- Blank lines at the end of a page are dropped. -/
theorem dropTrailingBlanks_append_blanks (lines : List Line) (n : Nat) :
    Flow.dropTrailingBlanks (lines ++ List.replicate n []) = Flow.dropTrailingBlanks lines := by
  induction n with
  | zero => rw [List.replicate_zero, List.append_nil]
  | succ n ih =>
    rw [List.replicate_succ', ← List.append_assoc, ← ih]
    simp [Flow.dropTrailingBlanks]

/-! ## (2) The same text -/

namespace SameText

/-- Lines show the same text as themselves. -/
theorem refl (p : Char → Bool) (lines : List Line) : SameText p lines lines :=
  ⟨Iff.rfl, rfl, rfl⟩

/-- Showing the same text is symmetric. -/
theorem symm (h : SameText p lines lines') : SameText p lines' lines :=
  ⟨h.isEmpty.symm, h.ended.symm, h.shown.symm⟩

/-- Showing the same text is transitive. -/
theorem trans {lines'' : List Line} (h : SameText p lines lines') (h' : SameText p lines' lines'') :
    SameText p lines lines'' :=
  ⟨h.isEmpty.trans h'.isEmpty, h.ended.trans h'.ended, h.shown.trans h'.shown⟩

section Space

variable (hspace : p ' ' = true) (hbreak : p '\n' = true)
include hspace

/-- **A line below** lines: both show the same text if they do so joined. -/
theorem concat (h : Text.collapseBy p (Text.ended lines ++ line) =
    Text.collapseBy p (Text.ended lines' ++ line')) (hne : line ≠ []) (hne' : line' ≠ []) :
    SameText p (lines ++ [line]) (lines' ++ [line']) := by
  refine ⟨by simp, ?_, ?_⟩
  · rw [Text.ended_concat, Text.ended_concat, ← List.append_assoc, ← List.append_assoc]
    exact Text.collapseBy_append_congr hspace h rfl
  · rw [dropTrailingBlanks_concat _ hne, dropTrailingBlanks_concat _ hne', Text.joinLines_concat,
      Text.joinLines_concat, h]

/-- The same line below lines that show the same text. -/
theorem concat_self (h : SameText p lines lines') (line : Line) :
    SameText p (lines ++ [line]) (lines' ++ [line]) := by
  by_cases hne : line = []
  · subst hne
    refine ⟨by simp, ?_, ?_⟩
    · rw [Text.ended_concat, Text.ended_concat]
      exact Text.collapseBy_append_congr hspace h.ended rfl
    · have hdrop := fun ls => dropTrailingBlanks_append_blanks ls 1
      rw [List.replicate_one] at hdrop
      rw [hdrop, hdrop, h.shown]
  · exact concat hspace (Text.collapseBy_append_congr hspace h.ended rfl) hne hne

include hbreak in
/-- **Blank lines** at the end show nothing. -/
theorem blanks (hne : lines ≠ []) (n : Nat) : SameText p lines (lines ++ List.replicate n []) := by
  refine ⟨by simp [hne], ?_, by rw [dropTrailingBlanks_append_blanks]⟩
  rw [Text.ended_append]
  refine (Text.collapseBy_append_breaks hspace ⟨'\n', Text.getLast?_ended hne, hbreak⟩ ?_).symm
  intro c hc
  obtain ⟨line, hline, hc⟩ := List.mem_flatMap.1 hc
  rw [List.eq_of_mem_replicate hline, List.nil_append, List.mem_singleton] at hc
  rwa [hc]

end Space

end SameText

end ChapterLayout
