import Mathlib.Data.List.Basic
import Mathlib.Data.List.Infix
import Mathlib.Data.List.TakeWhile
import ChapterLayout.Text.Basic

/-! # Texts up to the width of their gaps

Breaking a text into lines at other places changes the blanks of its gaps and nothing else, so two
layouts are compared with one space for every gap:

* **`Text.collapseBy p`** — the text with one space for every maximal run of characters of class
  `p`; for blanks it is `Text.collapse` (`collapse_eq_collapseBy`);
* **`collapseBy_append_congr`** — collapsing both halves of a text decides what the whole collapses
  to;
* **`collapseBy_append`** — unless a gap stands across the place where two texts are joined, the
  collapsed halves are joined as they are;
* **`collapseBy_isPrefix`**, **`collapseBy_isSuffix`** — wherever a text is cut, its halves collapse
  to parts of the collapsed text;
* **`infix_collapseBy_iff`** — a text without gaps stands in a collapsed text if and only if it
  stands in the text. -/

namespace ChapterLayout.Text

/-- The text with one space for every maximal run of characters of class `p`. -/
def collapseBy (p : Char → Bool) : Text → Text
  | [] => []
  | c :: s =>
    if p c then if s.head?.any p then collapseBy p s else ' ' :: collapseBy p s
    else c :: collapseBy p s

variable {p : Char → Bool} {c d : Char} {s s' t t' w : Text}

/-! ## (1) One character at a time -/

/-- Nothing is collapsed to nothing. -/
@[simp] theorem collapseBy_nil : collapseBy p [] = [] := rfl

/-- A letter stays. -/
theorem collapseBy_cons_letter (hc : p c = false) :
    collapseBy p (c :: s) = c :: collapseBy p s := by
  rw [collapseBy, if_neg (by simp [hc])]

/-- A gap that goes on is written later. -/
theorem collapseBy_cons_break (hc : p c = true) (hs : s.head?.any p = true) :
    collapseBy p (c :: s) = collapseBy p s := by
  rw [collapseBy, if_pos hc, if_pos hs]

/-- The end of a gap is written as a space. -/
theorem collapseBy_cons_last (hc : p c = true) (hs : s.head?.any p = false) :
    collapseBy p (c :: s) = ' ' :: collapseBy p s := by
  rw [collapseBy, if_pos hc, if_neg (by simp [hs])]

/-- Two characters of a gap are one gap. -/
theorem collapseBy_cons_cons_break (hc : p c = true) (hd : p d = true) :
    collapseBy p (c :: d :: s) = collapseBy p (d :: s) :=
  collapseBy_cons_break hc hd

/-- A letter ends the gap before it. -/
theorem collapseBy_cons_cons_last (hc : p c = true) (hd : p d = false) :
    collapseBy p (c :: d :: s) = ' ' :: collapseBy p (d :: s) :=
  collapseBy_cons_last hc hd

/-- The whole of a gap is written as a space. -/
theorem collapseBy_cons_dropWhile (hc : p c = true) (s : Text) :
    collapseBy p (c :: s) = ' ' :: collapseBy p (s.dropWhile p) := by
  induction s generalizing c with
  | nil => rw [collapseBy_cons_last hc rfl, List.dropWhile_nil]
  | cons d s ih =>
    by_cases hd : p d = true
    · rw [collapseBy_cons_cons_break hc hd, ih hd, List.dropWhile_cons_of_pos hd]
    · rw [collapseBy_cons_cons_last hc (by simpa using hd), List.dropWhile_cons_of_neg hd]

/-- **Blanks are collapsed** to one space for each of their runs. -/
theorem collapse_eq_collapseBy (s : Text) : collapse s = collapseBy isBlank s := by
  fun_induction collapse s with
  | case1 => rfl
  | case2 c s hc ih => rw [ih, collapseBy_cons_dropWhile hc]
  | case3 c s hc ih => rw [ih, collapseBy_cons_letter (by simpa using hc)]

/-- A text of characters of the class collapses to a space. -/
theorem collapseBy_breaks (hne : s ≠ []) (h : ∀ c ∈ s, p c = true) : collapseBy p s = [' '] := by
  obtain ⟨c, s, rfl⟩ := List.exists_cons_of_ne_nil hne
  obtain ⟨hc, hs⟩ := List.forall_mem_cons.1 h
  rw [collapseBy_cons_dropWhile hc, List.dropWhile_eq_nil_iff.2 hs, collapseBy_nil]

/-- A text without characters of the class stays as it is. -/
theorem collapseBy_letters (h : ∀ c ∈ s, p c = false) : collapseBy p s = s := by
  induction s with
  | nil => rfl
  | cons c s ih =>
    obtain ⟨hc, hs⟩ := List.forall_mem_cons.1 h
    rw [collapseBy_cons_letter hc, ih hs]

/-- Only nothing is collapsed to nothing. -/
theorem collapseBy_eq_nil_iff : collapseBy p s = [] ↔ s = [] := by
  cases s with
  | nil => simp
  | cons c s =>
    by_cases hc : p c = true
    · simp [collapseBy_cons_dropWhile hc]
    · simp [collapseBy_cons_letter (s := s) (by simpa using hc : p c = false)]

/-! ## (2) Joining texts -/

/-- Lines are joined by line feeds. -/
theorem joinLines_cons_cons (line next : Line) (lines : List Line) :
    joinLines (line :: next :: lines) = line ++ '\n' :: joinLines (next :: lines) := by
  simp [joinLines, List.intercalate]

section Space

variable (hp : p ' ' = true)
include hp

/-- A collapsed text starts with a gap if the text does. -/
theorem head?_collapseBy_any (s : Text) : (collapseBy p s).head?.any p = s.head?.any p := by
  cases s with
  | nil => rfl
  | cons c s =>
    by_cases hc : p c = true
    · rw [collapseBy_cons_dropWhile hc]
      simp [hp, hc]
    · rw [collapseBy_cons_letter (by simpa using hc)]
      rfl

/-- What stands behind a text may be replaced by a text that collapses to the same. -/
theorem collapseBy_append_congr_right (s : Text) (h : collapseBy p t = collapseBy p t') :
    collapseBy p (s ++ t) = collapseBy p (s ++ t') := by
  induction s with
  | nil => exact h
  | cons c s ih =>
    have hhead : (s ++ t).head?.any p = (s ++ t').head?.any p := by
      rw [← head?_collapseBy_any hp, ih, head?_collapseBy_any hp]
    rw [List.cons_append, List.cons_append, collapseBy, collapseBy, hhead, ih]

/-- What stands before a text may be collapsed first. -/
theorem collapseBy_collapseBy_append (s t : Text) :
    collapseBy p (collapseBy p s ++ t) = collapseBy p (s ++ t) := by
  induction s with
  | nil => rfl
  | cons c s ih =>
    by_cases hc : p c = true
    · by_cases hs : s.head?.any p = true
      · have hne : (s ++ t).head?.any p = true := by
          cases s with
          | nil => simp at hs
          | cons d s => exact hs
        rw [collapseBy_cons_break hc hs, ih, List.cons_append, collapseBy_cons_break hc hne]
      · -- The gap ends here, or goes on behind the first text.
        have hhead : (collapseBy p s ++ t).head?.any p = (s ++ t).head?.any p := by
          rw [← head?_collapseBy_any hp, ih, head?_collapseBy_any hp]
        rw [collapseBy_cons_last hc (by simpa using hs), List.cons_append, List.cons_append,
          collapseBy, collapseBy, if_pos hp, if_pos hc, hhead, ih]
    · have hc' : p c = false := by simpa using hc
      rw [collapseBy_cons_letter hc', List.cons_append, List.cons_append,
        collapseBy_cons_letter hc', collapseBy_cons_letter hc', ih]

/-- **Joined texts** collapse to the same if their halves do. -/
theorem collapseBy_append_congr (hs : collapseBy p s = collapseBy p s')
    (ht : collapseBy p t = collapseBy p t') : collapseBy p (s ++ t) = collapseBy p (s' ++ t') := by
  rw [← collapseBy_collapseBy_append hp, hs, collapseBy_collapseBy_append hp]
  exact collapseBy_append_congr_right hp s' ht

/-- **A gap within a text** is the same as a space. -/
theorem collapseBy_gap (s : Text) (hne : w ≠ []) (hw : ∀ c ∈ w, p c = true) (t : Text) :
    collapseBy p (s ++ (w ++ t)) = collapseBy p (s ++ (' ' :: t)) := by
  have hspace : collapseBy p [' '] = [' '] :=
    collapseBy_breaks (List.cons_ne_nil ' ' []) (by simpa using hp)
  refine collapseBy_append_congr_right hp s ?_
  rw [← List.singleton_append (l := t)]
  exact collapseBy_append_congr hp ((collapseBy_breaks hne hw).trans hspace.symm) rfl

/-- More of a gap at the end of a text changes nothing. -/
theorem collapseBy_append_breaks (hs : ∃ c, s.getLast? = some c ∧ p c = true)
    (ht : ∀ c ∈ t, p c = true) : collapseBy p (s ++ t) = collapseBy p s := by
  obtain ⟨c, hlast, hc⟩ := hs
  obtain ⟨s, rfl⟩ := List.getLast?_eq_some_iff.1 hlast
  rw [List.append_assoc]
  refine collapseBy_append_congr_right hp s ?_
  rw [List.singleton_append, collapseBy_breaks (by simp) (List.forall_mem_cons.2 ⟨hc, ht⟩),
    collapseBy_breaks (List.cons_ne_nil c []) (by simpa using hc)]

/-- Lines that collapse to the same one by one are the same once joined and collapsed. -/
theorem collapseBy_joinLines_congr {lines lines' : List Line}
    (h : List.Forall₂ (fun l l' => collapseBy p l = collapseBy p l') lines lines') :
    collapseBy p (joinLines lines) = collapseBy p (joinLines lines') := by
  induction h with
  | nil => rfl
  | @cons l l' ls ls' hl hls ih =>
    cases hls with
    | nil => simpa [joinLines] using hl
    | cons =>
      rw [joinLines_cons_cons, joinLines_cons_cons]
      exact collapseBy_append_congr hp hl (collapseBy_append_congr_right hp ['\n'] ih)

end Space

/-! ## (3) Parts of a text -/

/-- **Where no gap is cut,** the collapsed halves are the collapsed text. -/
theorem collapseBy_append (h : (∀ c, s.getLast? = some c → p c = false) ∨
    ∀ c, t.head? = some c → p c = false) :
    collapseBy p (s ++ t) = collapseBy p s ++ collapseBy p t := by
  induction s with
  | nil => rfl
  | cons c s ih =>
    by_cases hc : p c = true
    · cases s with
      | nil =>
        -- The text before is a blank, so the text behind it starts with a letter.
        have ht : t.head?.any p = false := by
          rcases h with h | h
          · exact absurd hc (by simp [h c rfl])
          · cases t with
            | nil => rfl
            | cons d t => exact h d rfl
        rw [List.singleton_append, collapseBy_cons_last hc ht, collapseBy_cons_last hc rfl]
        rfl
      | cons d s =>
        have hrest := ih (h.imp_left fun hlast e he => hlast e (by simpa using he))
        by_cases hd : p d = true
        · rw [collapseBy_cons_cons_break hc hd, List.cons_append, List.cons_append,
            collapseBy_cons_cons_break hc hd, ← hrest, List.cons_append]
        · have hd' : p d = false := by simpa using hd
          rw [collapseBy_cons_cons_last hc hd', List.cons_append, List.cons_append,
            collapseBy_cons_cons_last hc hd', List.cons_append, ← hrest, List.cons_append]
    · have hc' : p c = false := by simpa using hc
      have hrest : collapseBy p (s ++ t) = collapseBy p s ++ collapseBy p t := by
        cases s with
        | nil => rfl
        | cons d s => exact ih (h.imp_left fun hlast e he => hlast e (by simpa using he))
      rw [List.cons_append, collapseBy_cons_letter hc', collapseBy_cons_letter hc', hrest,
        List.cons_append]

/-- A letter at the end stays. -/
theorem collapseBy_concat_letter (hd : p d = false) (s : Text) :
    collapseBy p (s ++ [d]) = collapseBy p s ++ [d] := by
  have hletter : ∀ c, [d].head? = some c → p c = false := fun c hc => by
    rwa [← Option.some.inj hc]
  rw [collapseBy_append (Or.inr hletter), collapseBy_cons_letter hd, collapseBy_nil]

/-- **The end of a text** collapses to the end of the collapsed text. -/
theorem collapseBy_isSuffix (s t : Text) : collapseBy p t <:+ collapseBy p (s ++ t) := by
  induction s with
  | nil => exact List.suffix_refl _
  | cons c s ih =>
    rw [List.cons_append, collapseBy]
    split
    · split
      · exact ih
      · exact ih.trans (List.suffix_cons _ _)
    · exact ih.trans (List.suffix_cons _ _)

/-- **The start of a text** collapses to the start of the collapsed text. -/
theorem collapseBy_isPrefix (s t : Text) : collapseBy p s <+: collapseBy p (s ++ t) := by
  induction s with
  | nil => exact List.nil_prefix
  | cons c s ih =>
    -- A blank is shown if it is the last one of its gap, so that the next character decides.
    by_cases hc : p c = true
    · cases s with
      | nil =>
        rw [List.singleton_append, collapseBy_cons_dropWhile hc, collapseBy_cons_dropWhile hc]
        exact ⟨_, rfl⟩
      | cons d s =>
        by_cases hd : p d = true
        · rw [collapseBy_cons_cons_break hc hd, List.cons_append, List.cons_append,
            collapseBy_cons_cons_break hc hd]
          exact ih
        · have hd' : p d = false := by simpa using hd
          rw [collapseBy_cons_cons_last hc hd', List.cons_append, List.cons_append,
            collapseBy_cons_cons_last hc hd']
          exact List.prefix_cons_inj _ |>.2 ih
    · have hc' : p c = false := by simpa using hc
      rw [List.cons_append, collapseBy_cons_letter hc', collapseBy_cons_letter hc']
      exact List.prefix_cons_inj _ |>.2 ih

/-- A text of letters stands at the start of a collapsed text if it stands at the start of the
text. -/
theorem prefix_collapseBy_iff (hp : p ' ' = true) (hw : ∀ c ∈ w, p c = false) :
    w <+: collapseBy p s ↔ w <+: s := by
  induction w generalizing s with
  | nil => simp
  | cons d w ih =>
    obtain ⟨hd, hw⟩ := List.forall_mem_cons.1 hw
    cases s with
    | nil => simp
    | cons c s =>
      by_cases hc : p c = true
      · rw [collapseBy_cons_dropWhile hc, List.cons_prefix_cons, List.cons_prefix_cons]
        constructor
        · rintro ⟨rfl, -⟩
          simp [hp] at hd
        · rintro ⟨rfl, -⟩
          simp [hc] at hd
      · rw [collapseBy_cons_letter (by simpa using hc), List.cons_prefix_cons,
          List.cons_prefix_cons, ih hw]

/-- **A text of letters** stands in a collapsed text if and only if it stands in the text. -/
theorem infix_collapseBy_iff (hp : p ' ' = true) (hw : ∀ c ∈ w, p c = false) :
    w <:+: collapseBy p s ↔ w <:+: s := by
  by_cases hnil : w = []
  · subst hnil
    exact ⟨fun _ => List.nil_infix, fun _ => List.nil_infix⟩
  · induction s with
    | nil => simp
    | cons c s ih =>
      -- A space at the start belongs to no text of letters.
      have hspace : ∀ t : Text, ¬w <+: ' ' :: t := by
        intro t h
        obtain ⟨d, w, rfl⟩ := List.exists_cons_of_ne_nil hnil
        obtain rfl := (List.cons_prefix_cons.1 h).1
        exact absurd (hw ' ' List.mem_cons_self) (by simp [hp])
      have hcons := prefix_collapseBy_iff (s := c :: s) hp hw
      rw [List.infix_cons_iff, ← hcons, ← ih]
      by_cases hc : p c = true
      · by_cases hs : s.head?.any p = true
        · rw [collapseBy_cons_break hc hs]
          exact ⟨Or.inr, fun h => h.elim (fun h => h.isInfix) id⟩
        · rw [collapseBy_cons_last hc (by simpa using hs), List.infix_cons_iff]
      · rw [collapseBy_cons_letter (by simpa using hc), List.infix_cons_iff]

end ChapterLayout.Text
