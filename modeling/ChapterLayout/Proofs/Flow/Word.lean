import Mathlib.Data.List.Basic
import ChapterLayout.Flow.Word

/-! # What laying out a word does

`Flow.addWord` by cases, as equations between states. A fresh word is put on a line that has room
for it (`addWord_fresh`, `makeRoom_stay`, `makeRoom_wrap`). A piece that is glued to the last word
is put behind it (`addWord_glued`); then the word stays where it is (`fitWord_stay`) or moves to the
next line with its spans and links (`fitWord_move`). -/

namespace ChapterLayout

namespace Flow

variable {settings : Settings} {flow : Flow} {word : Text} {glue : Bool}

/-! ## (1) Before the word -/

/-- The state whose mark for the next word is used up. -/
def unmarked (flow : Flow) : Flow := { flow with pendingMark := [] }

/-- Without a mark that waits there is none to use up. -/
theorem unmarked_of_nil (h : flow.pendingMark = []) : flow.unmarked = flow := by
  rw [unmarked, ← h]

/-- A line that holds a word is begun. -/
theorem beginLine_of_hasWords (h : flow.hasWords = true) : flow.beginLine settings = flow := by
  simp [beginLine, h]

/-- A line that holds a marker is begun. -/
theorem beginLine_of_begun (h : flow.current ≠ []) : flow.beginLine settings = flow := by
  simp [beginLine, h]

/-- A new line begins with the indentation. -/
theorem beginLine_of_empty (hw : flow.hasWords = false) (h : flow.current = []) :
    flow.beginLine settings =
      { flow with current := flow.indent settings, continuation := flow.indent settings } := by
  simp [beginLine, hw, h]

/-- A line is begun, or it was begun before. -/
theorem beginLine_cases (settings : Settings) (flow : Flow) :
    (flow.hasWords = false ∧ flow.current = [] ∧ flow.beginLine settings =
        { flow with current := flow.indent settings, continuation := flow.indent settings }) ∨
      flow.beginLine settings = flow := by
  by_cases hnil : flow.current = []
  · by_cases hw : flow.hasWords = true
    · exact .inr (beginLine_of_hasWords hw)
    · have hw' : flow.hasWords = false := by simpa using hw
      exact .inl ⟨hw', hnil, beginLine_of_empty hw' hnil⟩
  · exact .inr (beginLine_of_begun hnil)

/-- No space separates a word from nothing. -/
theorem separator_of_nil (h : flow.current = []) : flow.separator = [] := by
  simp [separator, h]

/-- No second space separates a word from a space. -/
theorem separator_of_space (h : flow.current.getLast? = some ' ') : flow.separator = [] := by
  simp [separator, h, Text.isSpace]

/-- A space separates a word from the word before it. -/
theorem separator_of_letter {c : Char} (h : flow.current.getLast? = some c)
    (hc : Text.isFlowBlank c = false) : flow.separator = [' '] := by
  have hspace : Text.isSpace c = false := by
    simp only [Text.isFlowBlank, Bool.or_eq_false_iff] at hc
    exact hc.1
  simp [separator, h, hspace]

/-- The word stays on the line if it has room there, or if the line holds no word. -/
theorem makeRoom_stay
    (h : (Text.width flow.current + flow.separator.length + Text.width word : Int) ≤
      settings.maxWidth ∨
      flow.hasWords = false) :
    flow.makeRoom settings word = { flow with current := flow.current ++ flow.separator } := by
  have hroom : ¬(settings.maxWidth <
      ((Text.width flow.current + flow.separator.length + Text.width word : Nat) : Int) ∧
        flow.hasWords = true) := by
    rintro ⟨hfull, hw⟩
    push_cast at hfull
    rcases h with h | h
    · omega
    · simp [hw] at h
  simp only [makeRoom, Bool.and_eq_true, decide_eq_true_eq]
  rw [if_neg hroom]

/-- The line is committed if it holds a word and has no room for another one. -/
theorem makeRoom_wrap
    (h : settings.maxWidth <
      (Text.width flow.current + flow.separator.length + Text.width word : Int))
    (hw : flow.hasWords = true) :
    flow.makeRoom settings word = { flow.commit with current := flow.continuation } := by
  have hfull : settings.maxWidth <
      ((Text.width flow.current + flow.separator.length + Text.width word : Nat) : Int) ∧
        flow.hasWords = true := by
    refine ⟨?_, hw⟩
    push_cast
    exact h
  simp only [makeRoom, Bool.and_eq_true, decide_eq_true_eq]
  rw [if_pos hfull]

/-- The two ways of making room. -/
theorem makeRoom_cases (settings : Settings) (flow : Flow) (word : Text) :
    (flow.hasWords = true ∧
        flow.makeRoom settings word = { flow.commit with current := flow.continuation }) ∨
      flow.makeRoom settings word = { flow with current := flow.current ++ flow.separator } := by
  by_cases hw : flow.hasWords = true
  · by_cases hroom : (Text.width flow.current + flow.separator.length + Text.width word : Int) ≤
        settings.maxWidth
    · exact Or.inr (makeRoom_stay (Or.inl hroom))
    · exact Or.inl ⟨hw, makeRoom_wrap (by omega) hw⟩
  · exact Or.inr (makeRoom_stay (Or.inr (by simpa using hw)))

/-- What separates words is spaces. -/
theorem isSpace_of_mem_separator {c : Char} (h : c ∈ flow.separator) : Text.isSpace c = true := by
  unfold separator at h
  split at h
  · simp at h
  · split at h
    · simp at h
    · rw [List.mem_singleton] at h
      rw [h]
      rfl

/-! ## (2) The last word moves -/

/-- The state after the line is broken before the last word. -/
def broken (flow : Flow) : Flow :=
  commit { flow with
    current := Text.trimRight Text.isSpace (flow.current.take flow.wordStart)
    spans := flow.spans.take flow.spanMark
    page := { flow.page with links := flow.page.links.take flow.linkMark } }

/-- The state after the last word moved to the next line. -/
def moveWord (flow : Flow) : Flow :=
  let opened := startWord { flow.broken with current := flow.continuation }
  let line : Int := opened.lineIndex
  let shift : Int := (opened.wordStart : Int) - flow.wordStart
  { opened with
    current := opened.current ++ flow.current.drop flow.wordStart
    hasWords := true
    spans := opened.spans ++
      (flow.spans.drop flow.spanMark).map (relocate (fun r line => { r with line }) line shift)
    page := { opened.page with
      links := opened.page.links ++
        (flow.page.links.drop flow.linkMark).map
          (relocate (fun r line => { r with line }) line shift) } }

/-- The last word moves to the next line if the line is too wide and the word can move. -/
theorem fitWord_eq (flow : Flow) :
    flow.fitWord settings =
      if (Text.width flow.current : Int) ≤ settings.maxWidth || !flow.wordMovable then flow
      else flow.moveWord := rfl

/-- The word stays if the line is not too wide. -/
theorem fitWord_stay (h : (Text.width flow.current : Int) ≤ settings.maxWidth) :
    flow.fitWord settings = flow := by
  simp [fitWord_eq, h]

/-- A word that is alone on its line stays there. -/
theorem fitWord_alone (h : flow.wordMovable = false) : flow.fitWord settings = flow := by
  simp [fitWord_eq, h]

/-- The word moves if the line is too wide and holds another word before it. -/
theorem fitWord_move (h : settings.maxWidth < (Text.width flow.current : Int))
    (hm : flow.wordMovable = true) : flow.fitWord settings = flow.moveWord := by
  have hwide : ¬(Text.width flow.current : Int) ≤ settings.maxWidth := by omega
  simp [fitWord_eq, hwide, hm]

/-! ## (3) The word -/

/-- A fresh word starts where room was made for it. -/
theorem addWord_fresh (h : (glue && flow.hasWords) = false) :
    flow.addWord settings word glue =
      ((flow.unmarked.beginLine settings).makeRoom settings
        (flow.pendingMark ++ word)).startWord.place (flow.pendingMark ++ word) := by
  simp only [addWord, h, Bool.false_eq_true, if_false, unmarked]

/-- A glued word continues the last one. -/
theorem addWord_glued (h : flow.hasWords = true) :
    flow.addWord settings word true =
      (flow.unmarked.place (flow.pendingMark ++ word)).fitWord settings := by
  have hbegin : flow.unmarked.beginLine settings = flow.unmarked := beginLine_of_hasWords h
  have hglue : (true && flow.hasWords) = true := by simp [h]
  simp only [addWord, hglue, if_true]
  exact congrArg (fun begun => (begun.place (flow.pendingMark ++ word)).fitWord settings) hbegin

/-- Words leave the open blocks alone. -/
@[simp] theorem addWord_context (flow : Flow) (word : Text) (glue : Bool) :
    (flow.addWord settings word glue).context = flow.context := by
  unfold addWord beginLine makeRoom fitWord
  dsimp only
  split_ifs <;> rfl

end Flow

end ChapterLayout
