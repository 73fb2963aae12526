import Mathlib.Data.List.Basic
import Mathlib.Data.List.TakeWhile
import ChapterLayout.Text.Basic

/-! # Columns that hold a letter

`LetterAt s i` says that a character other than a space stands at column `i` of a text. Lines grow
at their ends, are cut before a word and lose the spaces at their ends, and the letters stay where
they are:

* **`LetterAt.append`**, **`LetterAt.take`**, **`LetterAt.trimRight`** — letters that stay;
* **`LetterAt.move`** — letters of a word that moves behind another start. -/

namespace ChapterLayout.Text

/-- Whether a character other than a space stands at a column. -/
def LetterAt (s : Text) (i : Nat) : Prop := ∃ c, s[i]? = some c ∧ isSpace c = false

variable {s t : Text} {i n : Nat}

/-- The column of a letter is one of the text. -/
theorem LetterAt.lt (h : LetterAt s i) : i < s.length := by
  obtain ⟨c, hc, -⟩ := h
  exact (List.getElem?_eq_some_iff.1 hc).1

/-- A column of a word holds a letter. -/
theorem letterAt_of_lt (hs : ∀ c ∈ s, isSpace c = false) (h : i < s.length) : LetterAt s i :=
  ⟨s[i], List.getElem?_eq_getElem h, hs _ (List.getElem_mem h)⟩

/-- A letter stands at the same column with more text behind. -/
theorem LetterAt.append (h : LetterAt s i) (t : Text) : LetterAt (s ++ t) i := by
  obtain ⟨c, hc, hspace⟩ := h
  exact ⟨c, by rw [List.getElem?_append_left (LetterAt.lt ⟨c, hc, hspace⟩), hc], hspace⟩

/-- The letters of the second of two texts. -/
theorem letterAt_append_right (h : s.length ≤ i) :
    LetterAt (s ++ t) i ↔ LetterAt t (i - s.length) := by
  unfold LetterAt
  rw [List.getElem?_append_right h]

/-- A letter stands at the same column of a part that holds it. -/
theorem LetterAt.take (h : LetterAt s i) (hi : i < n) : LetterAt (s.take n) i := by
  obtain ⟨c, hc, hspace⟩ := h
  exact ⟨c, by rw [List.getElem?_take_of_lt hi, hc], hspace⟩

/-- A text is its part without the spaces at its end, and spaces. -/
theorem exists_trimRight_append (s : Text) : ∃ blanks : Text,
    s = trimRight isSpace s ++ blanks ∧ ∀ c ∈ blanks, isSpace c = true := by
  refine ⟨(s.reverse.takeWhile isSpace).reverse, ?_, fun c hc => ?_⟩
  · rw [trimRight, ← List.reverse_append, List.takeWhile_append_dropWhile, List.reverse_reverse]
  · exact List.mem_takeWhile_imp (List.mem_reverse.1 hc)

/-- A letter stands at the same column without the spaces at the end. -/
theorem LetterAt.trimRight (h : LetterAt s i) : LetterAt (trimRight isSpace s) i := by
  obtain ⟨blanks, hs, hblanks⟩ := exists_trimRight_append s
  by_cases hi : i < (Text.trimRight isSpace s).length
  · obtain ⟨c, hc, hspace⟩ := h
    rw [hs, List.getElem?_append_left hi] at hc
    exact ⟨c, hc, hspace⟩
  · -- Behind the trimmed text stand spaces only.
    rw [hs, letterAt_append_right (Nat.le_of_not_lt hi)] at h
    obtain ⟨c, hc, hspace⟩ := h
    have := hblanks c (List.mem_of_getElem? hc)
    simp [hspace] at this

/-- A trimmed text does not end in a space. -/
theorem getLast?_trimRight (s : Text) : (trimRight isSpace s).getLast? ≠ some ' ' := by
  intro h
  rw [trimRight, List.getLast?_reverse] at h
  have := List.head?_dropWhile_not isSpace s.reverse
  rw [h] at this
  exact absurd this (by decide)

/-- The letters of a word that moves behind another start. -/
theorem LetterAt.move (h : LetterAt s i) (hi : n ≤ i) (t : Text) :
    LetterAt (t ++ s.drop n) (t.length + (i - n)) := by
  obtain ⟨c, hc, hspace⟩ := h
  refine ⟨c, ?_, hspace⟩
  rw [List.getElem?_append_right (Nat.le_add_right _ _), Nat.add_sub_cancel_left,
    List.getElem?_drop, Nat.add_sub_cancel' hi, hc]

end ChapterLayout.Text
