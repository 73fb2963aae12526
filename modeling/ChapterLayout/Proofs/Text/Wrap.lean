import Mathlib.Data.List.Basic
import ChapterLayout.Text.Width

/-! # Greedy wrapping

Words laid out greedily: a word goes on the line that is being filled, after one space, if the line
has room for both, and otherwise it starts the next line.

* **`wrap maxWidth first next words`** — the lines of the words; the first line starts with `first`,
  every other one with `next`;
* **`wrap_concat`** — one more word extends the last line if it fits there, and otherwise adds a
  line. -/

namespace ChapterLayout.Text

/-- Whether a line that holds a word has room for a space and another word. -/
def Fits (maxWidth : Int) (line : Line) (word : Text) : Prop :=
  (width line : Int) + 1 + width word ≤ maxWidth

instance (maxWidth : Int) (line : Line) (word : Text) : Decidable (Fits maxWidth line word) :=
  inferInstanceAs (Decidable ((width line : Int) + 1 + width word ≤ maxWidth))

/-- The lines that fill up from a line that holds a word already. -/
def wrapFrom (maxWidth : Int) (next : Line) : (line : Line) → List Text → List Line
  | line, [] => [line]
  | line, word :: words =>
    if Fits maxWidth line word then wrapFrom maxWidth next (line ++ ' ' :: word) words
    else line :: wrapFrom maxWidth next (next ++ word) words

/-- The lines of words wrapped greedily: the first word stands after `first`, and the first word of
every other line after `next`. -/
def wrap (maxWidth : Int) (first next : Line) : List Text → List Line
  | [] => []
  | word :: words => wrapFrom maxWidth next (first ++ word) words

variable {maxWidth : Int} {first next line last : Line} {word : Text} {words : List Text}
  {above : List Line}

/-- A line that is too narrow for a part of a word is too narrow for the word. -/
theorem Fits.of_append {rest : Text} (h : Fits maxWidth line (word ++ rest)) :
    Fits maxWidth line word := by
  unfold Fits at h ⊢
  rw [width_append] at h
  omega

/-- There is a last line. -/
theorem exists_wrapFrom (maxWidth : Int) (next line : Line) (words : List Text) :
    ∃ above last, wrapFrom maxWidth next line words = above ++ [last] := by
  induction words generalizing line with
  | nil => exact ⟨[], line, rfl⟩
  | cons word words ih =>
    rw [wrapFrom]
    split
    · exact ih _
    · obtain ⟨above, last, h⟩ := ih (next ++ word)
      exact ⟨line :: above, last, by rw [h]; rfl⟩

/-- One more word extends the last line, or starts a line. -/
theorem wrapFrom_concat (h : wrapFrom maxWidth next line words = above ++ [last]) :
    wrapFrom maxWidth next line (words ++ [word]) =
      if Fits maxWidth last word then above ++ [last ++ ' ' :: word]
      else above ++ [last, next ++ word] := by
  -- The last line is that of the words behind the first one, whether or not a line is broken there.
  induction words generalizing line above with
  | nil =>
    obtain ⟨rfl, rfl⟩ : above = [] ∧ line = last := by
      cases above <;> simp_all [wrapFrom]
    simp [wrapFrom]
  | cons v words ih =>
    rw [List.cons_append, wrapFrom]
    rw [wrapFrom] at h
    by_cases hv : Fits maxWidth line v
    · rw [if_pos hv] at h ⊢
      exact ih h
    · rw [if_neg hv] at h ⊢
      obtain ⟨above', last', hlines⟩ := exists_wrapFrom maxWidth next (next ++ v) words
      rw [hlines, ← List.cons_append] at h
      obtain ⟨rfl, rfl⟩ := List.append_singleton_inj.1 h
      rw [ih hlines]
      split <;> rfl

/-- No words make no lines. -/
@[simp] theorem wrap_nil : wrap maxWidth first next [] = [] := rfl

/-- A single word makes one line. -/
@[simp] theorem wrap_singleton : wrap maxWidth first next [word] = [first ++ word] := rfl

/-- Words make at least one line. -/
theorem wrap_ne_nil (h : words ≠ []) : wrap maxWidth first next words ≠ [] := by
  obtain ⟨word, words, rfl⟩ := List.exists_cons_of_ne_nil h
  obtain ⟨above, last, hlines⟩ := exists_wrapFrom maxWidth next (first ++ word) words
  rw [wrap, hlines]
  exact List.append_ne_nil_of_right_ne_nil above (List.cons_ne_nil last [])

/-- **One more word.** It stands on the last line if it fits there, and on a line of its own
otherwise. -/
theorem wrap_concat (h : wrap maxWidth first next words = above ++ [last]) :
    wrap maxWidth first next (words ++ [word]) =
      if Fits maxWidth last word then above ++ [last ++ ' ' :: word]
      else above ++ [last, next ++ word] := by
  cases words with
  | nil => simp at h
  | cons v words => exact wrapFrom_concat h

end ChapterLayout.Text
