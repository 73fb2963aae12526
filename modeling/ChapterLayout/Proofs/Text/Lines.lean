import Mathlib.Data.List.Basic
import ChapterLayout.Text.Basic

/-! # Lines of a text

Cutting a text at its line breaks: the pieces hold no line feed, and after `Text.unifyNewlines` no
carriage return either. -/

namespace ChapterLayout.Text

variable {sep c : Char} {s piece : Text}

/-- The separator ends a piece. -/
theorem splitOn_cons_self : splitOn sep (sep :: s) = [] :: splitOn sep s := by
  simp [splitOn]

/-- A text has a first piece. -/
theorem exists_splitOn (sep : Char) (s : Text) : ∃ q qs, splitOn sep s = q :: qs := by
  cases s with
  | nil => exact ⟨[], [], rfl⟩
  | cons c s =>
    simp only [splitOn]
    split
    · exact ⟨[], _, rfl⟩
    · split
      · exact ⟨[c], [], rfl⟩
      · exact ⟨_, _, rfl⟩

/-- Any other character belongs to the first piece. -/
theorem splitOn_cons_of_ne (hc : c ≠ sep) {q : Text} {qs : List Text}
    (hs : splitOn sep s = q :: qs) : splitOn sep (c :: s) = (c :: q) :: qs := by
  simp [splitOn, hc, hs]

/-- A piece holds characters of the text, and not the separator. -/
theorem of_mem_splitOn (h : piece ∈ splitOn sep s) (hc : c ∈ piece) : c ∈ s ∧ c ≠ sep := by
  induction s generalizing piece with
  | nil =>
    rw [splitOn, List.mem_singleton] at h
    simp [h] at hc
  | cons d s ih =>
    by_cases hd : d = sep
    · rw [hd, splitOn_cons_self, List.mem_cons] at h
      rcases h with rfl | h
      · simp at hc
      · exact ⟨List.mem_cons_of_mem _ (ih h hc).1, (ih h hc).2⟩
    · obtain ⟨q, qs, hs⟩ := exists_splitOn sep s
      rw [splitOn_cons_of_ne hd hs, List.mem_cons] at h
      rcases h with rfl | h
      · rcases List.mem_cons.1 hc with rfl | hc
        · exact ⟨List.mem_cons_self, hd⟩
        · have hq : q ∈ splitOn sep s := by simp [hs]
          exact ⟨List.mem_cons_of_mem _ (ih hq hc).1, (ih hq hc).2⟩
      · have hq : piece ∈ splitOn sep s := by simp [hs, h]
        exact ⟨List.mem_cons_of_mem _ (ih hq hc).1, (ih hq hc).2⟩

/-- The last piece of a text goes on in the first piece of the text behind it. -/
theorem splitOn_append {t last q : Text} {above qs : List Text}
    (hs : splitOn sep s = above ++ [last]) (ht : splitOn sep t = q :: qs) :
    splitOn sep (s ++ t) = above ++ (last ++ q) :: qs := by
  -- The first piece of the second text is put to the last one of the first, and that is not known
  -- before the end of the first text.
  induction s generalizing above last with
  | nil =>
    obtain ⟨rfl, rfl⟩ : above = [] ∧ last = [] := by
      cases above <;> simp_all [splitOn]
    exact ht
  | cons d s ih =>
    obtain ⟨p, ps, hp⟩ := exists_splitOn sep s
    rw [List.cons_append]
    by_cases hd : d = sep
    -- A separator ends a piece.
    · rw [hd, splitOn_cons_self] at hs ⊢
      cases above with
      | nil => simp [hp] at hs
      | cons a above =>
        rw [List.cons_append] at hs
        rw [ih (List.cons.inj hs).2, ← (List.cons.inj hs).1, List.cons_append]
    -- Any other character is put to the first piece, which may be the last one, too.
    · rw [splitOn_cons_of_ne hd hp] at hs
      cases above with
      | nil =>
        obtain ⟨rfl, rfl⟩ := List.cons.inj hs
        have hlast : splitOn sep s = [] ++ [p] := hp
        rw [splitOn_cons_of_ne hd (ih hlast)]
        rfl
      | cons a above =>
        rw [List.cons_append] at hs
        have hlast : splitOn sep s = (p :: above) ++ [last] := by
          rw [hp, List.cons_append, (List.cons.inj hs).2]
        rw [splitOn_cons_of_ne hd (ih hlast), ← (List.cons.inj hs).1]
        rfl

/-- A text without carriage returns writes its line breaks as line feeds already. -/
theorem unifyNewlines_of_not_mem (h : '\r' ∉ s) : unifyNewlines s = s := by
  fun_induction unifyNewlines s with
  | case1 => rfl
  | case2 s _ => exact absurd List.mem_cons_self h
  | case3 s _ _ => exact absurd List.mem_cons_self h
  | case4 c s _ _ ih => rw [ih fun hs => h (List.mem_cons_of_mem _ hs)]

/-- With all line breaks written as line feeds no carriage return is left. -/
theorem not_mem_unifyNewlines (s : Text) : '\r' ∉ unifyNewlines s := by
  fun_induction unifyNewlines s with
  | case1 => simp
  | case2 s ih => simp [ih]
  | case3 s _ ih => simp [ih]
  | case4 c s _ hc ih =>
    rw [List.mem_cons, not_or]
    exact ⟨fun h => hc h.symm, ih⟩

/-- The lines of a text hold no line break of any form. -/
theorem no_break_of_mem_lines (h : piece ∈ splitOn '\n' (unifyNewlines s)) :
    '\n' ∉ piece ∧ '\r' ∉ piece :=
  ⟨fun hc => (of_mem_splitOn h hc).2 rfl,
    fun hc => not_mem_unifyNewlines s (of_mem_splitOn h hc).1⟩

end ChapterLayout.Text
