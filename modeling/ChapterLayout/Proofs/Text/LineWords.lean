import ChapterLayout.Proofs.Text.Trim
import ChapterLayout.Proofs.Text.Words
import ChapterLayout.Proofs.Text.Wrap

/-! # The words of lines

What is laid out as lines and read back from them is compared by its words:

* **`words_collapseBy`**, **`words_trim`** — collapsing gaps and trimming leave the words alone;
* **`words_joined`** — lines joined by spaces hold the words of one line after the other;
* **`flatMap_words_wrap`**, **`words_ne_nil_of_mem_wrap`** — lines that words were wrapped into hold
  those words again, and none of the lines is without a word. -/

namespace ChapterLayout.Text

variable {p q : Char → Bool} {c : Char} {s : Text} {line : Line} {ws : List Text} {maxWidth : Int}

/-! ## (1) Gaps -/

/-- **Collapsing gaps** leaves the words alone. -/
theorem words_collapseBy (hp : p ' ' = true) (s : Text) : words p (collapseBy p s) = words p s := by
  induction s with
  | nil => rfl
  | cons c s ih =>
    by_cases hc : p c = true
    · rw [words_cons_break hc, ← ih]
      by_cases hs : s.head?.any p = true
      · rw [collapseBy_cons_break hc hs]
      · rw [collapseBy_cons_last hc (by simpa using hs), words_cons_break hp]
    · have hc' : p c = false := by simpa using hc
      rw [collapseBy_cons_letter hc']
      cases s with
      | nil => rfl
      | cons d s =>
        by_cases hd : p d = true
        · -- The gap behind the letter is collapsed, so it starts with a space.
          rw [words_cons_cons_break hc' hd, ← ih, collapseBy_cons_dropWhile hd]
          exact words_cons_cons_break hc' hp
        · have hd' : p d = false := by simpa using hd
          obtain ⟨w, ws, hw⟩ := exists_words_cons (p := p) (s := s) hd'
          rw [words_cons_cons_letter hc' hd' hw]
          rw [hw, collapseBy_cons_letter hd'] at ih
          rw [collapseBy_cons_letter hd']
          exact words_cons_cons_letter hc' hd' ih

/-- Texts whose characters belong to the same class have the same words. -/
theorem words_congr (h : ∀ c ∈ s, p c = q c) : words p s = words q s := by
  induction s with
  | nil => rfl
  | cons c s ih =>
    obtain ⟨hc, hs⟩ := List.forall_mem_cons.1 h
    cases s with
    | nil => simp only [words, hc]
    | cons d s =>
      rw [words.eq_def p, words.eq_def q]
      simp only [ih hs, hc, hs d List.mem_cons_self]

/-- **Trimming** leaves the words alone. -/
theorem words_trim (s : Text) : words isBlank (trim s) = words isBlank s := by
  obtain ⟨gap, hs, hgap, -⟩ := exists_trim isBlank s
  have hstart : ∀ c ∈ s.takeWhile isBlank, isBlank c = true := fun c hc =>
    List.mem_takeWhile_imp hc
  rw [hs, words_append_of_getLast fun c hc => hstart c (List.mem_of_getLast? hc),
    words_eq_nil_iff.2 hstart, List.nil_append,
    words_append_of_head fun c hc => hgap c (List.mem_of_head? hc), words_eq_nil_iff.2 hgap,
    List.append_nil, ← hs]
  rfl

/-! ## (2) Lines -/

/-- **Lines joined by spaces** hold the words of one line after the other. -/
theorem words_joined (hp : p ' ' = true) (lines : List Line) :
    words p ([' '].intercalate lines) = lines.flatMap (words p) := by
  induction lines with
  | nil => rfl
  | cons line lines ih =>
    cases lines with
    | nil => simp [List.intercalate]
    | cons next lines =>
      have hjoin : [' '].intercalate (line :: next :: lines) =
          line ++ ' ' :: [' '].intercalate (next :: lines) := by
        simp [List.intercalate]
      rw [hjoin, words_append_break hp, ih]
      rfl

/-- Lines that fill up from a line hold the words of that line and those they are filled with. -/
theorem flatMap_words_wrapFrom (hp : p ' ' = true) (hws : ∀ w ∈ ws, words p w = [w])
    (line : Line) : (wrapFrom maxWidth [] line ws).flatMap (words p) = words p line ++ ws := by
  induction ws generalizing line with
  | nil => simp [wrapFrom]
  | cons w ws ih =>
    obtain ⟨hw, hws⟩ := List.forall_mem_cons.1 hws
    rw [wrapFrom]
    split
    · rw [ih hws, words_append_break hp, hw, List.append_assoc, List.singleton_append]
    · rw [List.flatMap_cons, ih hws, List.nil_append, hw, List.singleton_append]

/-- **Wrapped words** are the words of their lines. -/
theorem flatMap_words_wrap (hp : p ' ' = true) (hws : ∀ w ∈ ws, words p w = [w]) :
    (wrap maxWidth [] [] ws).flatMap (words p) = ws := by
  cases ws with
  | nil => rfl
  | cons w ws =>
    obtain ⟨hw, hws⟩ := List.forall_mem_cons.1 hws
    rw [wrap, flatMap_words_wrapFrom hp hws, List.nil_append, hw, List.singleton_append]

/-- Lines that fill up from a line with a word have words. -/
theorem words_ne_nil_of_mem_wrapFrom {first : Line} (hp : p ' ' = true)
    (hws : ∀ w ∈ ws, words p w = [w]) (hfirst : words p first ≠ [])
    (hline : line ∈ wrapFrom maxWidth [] first ws) : words p line ≠ [] := by
  induction ws generalizing first with
  | nil =>
    rw [wrapFrom, List.mem_singleton] at hline
    rwa [hline]
  | cons w ws ih =>
    obtain ⟨hw, hws⟩ := List.forall_mem_cons.1 hws
    rw [wrapFrom] at hline
    split at hline
    · refine ih hws ?_ hline
      rw [words_append_break hp]
      exact List.append_ne_nil_of_left_ne_nil hfirst _
    · rcases List.mem_cons.1 hline with rfl | hline
      · exact hfirst
      · refine ih hws ?_ hline
        rw [List.nil_append, hw]
        exact List.cons_ne_nil w []

/-- **Every wrapped line** has a word. -/
theorem words_ne_nil_of_mem_wrap (hp : p ' ' = true) (hws : ∀ w ∈ ws, words p w = [w])
    (hline : line ∈ wrap maxWidth [] [] ws) : words p line ≠ [] := by
  cases ws with
  | nil => exact absurd hline List.not_mem_nil
  | cons w ws =>
    obtain ⟨hw, hws⟩ := List.forall_mem_cons.1 hws
    refine words_ne_nil_of_mem_wrapFrom hp hws ?_ hline
    rw [List.nil_append, hw]
    exact List.cons_ne_nil w []

end ChapterLayout.Text
