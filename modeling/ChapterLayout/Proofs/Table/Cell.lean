import ChapterLayout.Proofs.Text.LineWords
import ChapterLayout.Proofs.Text.Spaces
import ChapterLayout.Table.Box

/-! # The lines of a cell

The text of a cell is broken into lines greedily. What that means is said on the lines alone
(`IsGreedy`): joined by spaces they are the text with its gaps collapsed, a line that is too wide is
a single word, and no line has room for the first word of the line below it. There is one list of
lines of this kind only, and `wrapCell` finds it:

* **`wrapCell_eq_wrapFrom`** — the lines of a cell are its words, wrapped as flow text is;
* **`isGreedy_wrapFrom`** — wrapped words are greedy lines;
* **`IsGreedy.eq_wrapFrom`** — and greedy lines are the wrapped words;
* **`isGreedy_iff`** — hence the greedy lines of a text are those of `wrapCell`, for every width;
* **`flatMap_words_wrapCell`**, **`width_le_of_mem_wrapCell`** — they hold the words of the text,
  and are as narrow as the width if all its words are. -/

namespace ChapterLayout

variable {W : Int} {line : Line} {lines : List Line} {s v w : Text} {ws : List Text}

namespace Text

/-- What stands in a line before its first space. -/
def firstWord (line : Line) : Text := line.takeWhile fun c => !isSpace c

/-- A word before a space is the first one of its line. -/
theorem firstWord_append (hw : ' ' ∉ w) (hs : s = [] ∨ s.head? = some ' ') :
    firstWord (w ++ s) = w := by
  have hletters : ∀ c ∈ w, (!isSpace c) = true := by
    intro c hc
    have hne : c ≠ ' ' := fun heq => hw (heq ▸ hc)
    simp [isSpace, hne]
  rw [firstWord, List.takeWhile_append_of_pos hletters]
  rcases hs with rfl | hs
  · simp
  · obtain ⟨s', rfl⟩ := List.head?_eq_some_iff.1 hs
    simp [isSpace]

/-! ## (1) Wrapped words -/

/-- Lines joined by spaces start with the first line and a space. -/
theorem intercalate_cons_of_ne_nil (line : Line) (h : lines ≠ []) :
    [' '].intercalate (line :: lines) = line ++ ' ' :: [' '].intercalate lines := by
  obtain ⟨next, lines, rfl⟩ := List.exists_cons_of_ne_nil h
  simp [List.intercalate]

/-- A text at the start of the first line is at the start of the lines joined. -/
theorem intercalate_append (s t : Text) (lines : List Line) :
    [' '].intercalate ((s ++ t) :: lines) = s ++ [' '].intercalate (t :: lines) := by
  cases lines <;> simp [List.intercalate]

/-- Lines joined by spaces are the same, whether a word ends a line or is the next one. -/
theorem intercalate_append_word (line w : Text) (ws : List Text) :
    [' '].intercalate ((line ++ ' ' :: w) :: ws) = [' '].intercalate (line :: w :: ws) := by
  cases ws <;> simp [List.intercalate]

/-- What follows the first of several lines is a space, or nothing. -/
theorem intercalate_cons (line : Line) (lines : List Line) :
    ∃ t, [' '].intercalate (line :: lines) = line ++ t ∧ (t = [] ∨ t.head? = some ' ') ∧
      (t = [] ↔ lines = []) := by
  cases lines with
  | nil => exact ⟨[], by simp [List.intercalate], .inl rfl, by simp⟩
  | cons next lines =>
    exact ⟨_, intercalate_cons_of_ne_nil line (List.cons_ne_nil next lines), .inr rfl, by simp⟩

/-- A line that a text starts with starts with the first word of that text. -/
theorem exists_append_of_joined (hw : ' ' ∉ w)
    (h : [' '].intercalate (line :: lines) = [' '].intercalate (w :: ws)) :
    ∃ more, line = w ++ more ∧ (more = [] ∨ more.head? = some ' ') := by
  obtain ⟨t, ht, htspace, -⟩ := intercalate_cons line lines
  obtain ⟨u, hu, huspace, -⟩ := intercalate_cons w ws
  rw [ht, hu] at h
  rcases List.append_eq_append_iff.1 h with ⟨v, rfl, rfl⟩ | ⟨v, rfl, rfl⟩
  · -- The word does not reach beyond the line, since a space is next.
    cases v with
    | nil => exact ⟨[], by simp, .inl rfl⟩
    | cons c v =>
      obtain rfl : c = ' ' := by simpa using htspace
      simp at hw
  · refine ⟨v, rfl, ?_⟩
    cases v with
    | nil => exact .inl rfl
    | cons c v => exact .inr (by simpa using huspace)

/-- Wrapping only breaks a text at spaces. -/
theorem intercalate_wrapFrom (line : Line) (ws : List Text) :
    [' '].intercalate (wrapFrom W [] line ws) = [' '].intercalate (line :: ws) := by
  induction ws generalizing line with
  | nil => rfl
  | cons w ws ih =>
    rw [wrapFrom]
    split
    · rw [ih, intercalate_append_word]
    · obtain ⟨above, last, hlines⟩ := exists_wrapFrom W [] ([] ++ w) ws
      have hne : wrapFrom W [] ([] ++ w) ws ≠ [] := by
        rw [hlines]
        simp
      rw [intercalate_cons_of_ne_nil line hne, ih,
        intercalate_cons_of_ne_nil line (List.cons_ne_nil w ws), List.nil_append]

/-- A word fits if the line with a space and the word is no wider than the cell. -/
theorem fits_iff : Fits W line w ↔ (width (line ++ ' ' :: w) : Int) ≤ W := by
  rw [Fits]
  simp only [width_append, width_cons, charWidth_space]
  omega

/-- Text that fits is not broken. -/
theorem wrapFrom_of_width_le (h : (width ([' '].intercalate (line :: ws)) : Int) ≤ W) :
    wrapFrom W [] line ws = [[' '].intercalate (line :: ws)] := by
  induction ws generalizing line with
  | nil => simp [wrapFrom, List.intercalate]
  | cons w ws ih =>
    rw [← intercalate_append_word] at h ⊢
    have hfits : Fits W line w := by
      obtain ⟨t, ht, -⟩ := intercalate_cons (line ++ ' ' :: w) ws
      rw [ht, width_append] at h
      rw [fits_iff]
      omega
    rw [wrapFrom, if_pos hfits, ih h]

/-- What holds of the words, and of every line that grows because it has room, holds of the lines
they are wrapped into. -/
theorem forall_mem_wrapFrom {P : Line → Prop} (hline : P line) (hws : ∀ w ∈ ws, P w)
    (hgrow : ∀ l w, Fits W l w → P (l ++ ' ' :: w)) : ∀ l ∈ wrapFrom W [] line ws, P l := by
  induction ws generalizing line with
  | nil => simpa [wrapFrom] using hline
  | cons w ws ih =>
    obtain ⟨hw, hws⟩ := List.forall_mem_cons.1 hws
    rw [wrapFrom]
    split
    · rename_i hfits
      exact ih (hgrow line w hfits) hws
    · exact List.forall_mem_cons.2 ⟨hline, ih hw hws⟩

/-- Whether a line is as narrow as it may be: it fits, or it has no space at which it could be
broken. -/
def IsNarrowed (W : Int) (line : Line) : Prop := (width line : Int) ≤ W ∨ ' ' ∉ line

/-- Every line of a wrapped text fits, or has no space at which it could be broken. -/
theorem isNarrowed_of_mem_wrapFrom (hline : ' ' ∉ line) (hws : ∀ w ∈ ws, ' ' ∉ w) :
    ∀ l ∈ wrapFrom W [] line ws, IsNarrowed W l :=
  forall_mem_wrapFrom (.inr hline) (fun w hw => .inr (hws w hw)) fun _ _ h => .inl (fits_iff.1 h)

/-- Words that fit are wrapped into lines that fit. -/
theorem width_le_of_mem_wrapFrom (hline : (width line : Int) ≤ W)
    (hws : ∀ w ∈ ws, (width w : Int) ≤ W) :
    ∀ l ∈ wrapFrom W [] line ws, (width l : Int) ≤ W :=
  forall_mem_wrapFrom hline hws fun _ _ h => fits_iff.1 h

/-- The first line goes on behind a space, if at all. -/
theorem wrapFrom_starts (line : Line) (ws : List Text) :
    ∃ more below, wrapFrom W [] line ws = (line ++ more) :: below ∧
      (more = [] ∨ more.head? = some ' ') := by
  induction ws generalizing line with
  | nil => exact ⟨[], [], by simp [wrapFrom], .inl rfl⟩
  | cons w ws ih =>
    rw [wrapFrom]
    split
    · obtain ⟨more, below, h, -⟩ := ih (line ++ ' ' :: w)
      exact ⟨' ' :: w ++ more, below, by simpa using h, .inr rfl⟩
    · exact ⟨[], _, by rw [List.append_nil], .inl rfl⟩

/-- Whether a line is too full for the first word of the line below it. -/
def IsFull (W : Int) (line below : Line) : Prop := W < width (line ++ ' ' :: firstWord below)

/-- A line is too full for the line below it just if the first word there does not fit. -/
theorem isFull_iff (hw : ' ' ∉ w) (hs : s = [] ∨ s.head? = some ' ') :
    IsFull W line (w ++ s) ↔ ¬Fits W line w := by
  rw [IsFull, firstWord_append hw hs, fits_iff, Int.not_le]

/-- Every line of a wrapped text is too full for the line below it. -/
theorem isChain_wrapFrom (hws : ∀ w ∈ ws, ' ' ∉ w) (line : Line) :
    (wrapFrom W [] line ws).IsChain (IsFull W) := by
  induction ws generalizing line with
  | nil => exact .singleton line
  | cons w ws ih =>
    obtain ⟨hw, hws⟩ := List.forall_mem_cons.1 hws
    rw [wrapFrom]
    split
    · exact ih hws _
    · rename_i hfits
      obtain ⟨more, below, hlines, hmore⟩ := wrapFrom_starts (W := W) w ws
      have hchain := ih hws w
      rw [List.nil_append, hlines]
      rw [hlines] at hchain
      -- The word was put on the next line because it did not fit.
      exact List.isChain_cons_cons.2 ⟨(isFull_iff hw hmore).2 hfits, hchain⟩

end Text

/-! ## (2) Greedy lines -/

namespace Table

/-- Whether lines are the greedy lines of a text. -/
structure IsGreedy (s : Text) (W : Int) (lines : List Line) : Prop where
  /-- There is a line, even if there is no text. -/
  ne_nil : lines ≠ []
  /-- Joined by spaces they are the text without its gaps. -/
  joined : [' '].intercalate lines = Text.squeeze s
  /-- Each line fits, or is a single word. -/
  narrowed : ∀ line ∈ lines, Text.IsNarrowed W line
  /-- No line has room for the first word of the line below it. -/
  full : lines.IsChain (Text.IsFull W)

open Text

/-- Wrapping at the blanks makes the greedy lines of a text. -/
theorem isGreedy_wrapFrom (hs : words isBlank s = w :: ws) (hw : ' ' ∉ w)
    (hws : ∀ w ∈ ws, ' ' ∉ w) : IsGreedy s W (wrapFrom W [] w ws) where
  ne_nil := by
    obtain ⟨above, last, hlines⟩ := exists_wrapFrom W [] w ws
    simp [hlines]
  joined := by rw [intercalate_wrapFrom, squeeze, hs]
  narrowed := isNarrowed_of_mem_wrapFrom hw hws
  full := isChain_wrapFrom hws w

/-- Lines that join to the same text, and of which each but the last is full, are those that
wrapping goes on with from any start of the first one. -/
theorem eq_wrapFrom_of_isChain (hws : ∀ w ∈ ws, ' ' ∉ w)
    (hjoined : [' '].intercalate ((line ++ v) :: lines) = [' '].intercalate (line :: ws))
    (hnarrowed : ∀ l ∈ (line ++ v) :: lines, IsNarrowed W l)
    (hfull : ((line ++ v) :: lines).IsChain (IsFull W)) :
    (line ++ v) :: lines = wrapFrom W [] line ws := by
  induction ws generalizing line v lines with
  | nil =>
    rw [intercalate_append, List.intercalate_singleton] at hjoined
    obtain ⟨t, ht, -, hnil⟩ := intercalate_cons v lines
    have htail : v = [] ∧ t = [] := by simpa [ht] using hjoined
    rw [hnil.1 htail.2, htail.1, List.append_nil, wrapFrom]
  | cons w ws ih =>
    obtain ⟨hw, hws⟩ := List.forall_mem_cons.1 hws
    rw [intercalate_append, intercalate_cons_of_ne_nil line (List.cons_ne_nil w ws),
      List.append_cancel_left_eq] at hjoined
    rw [wrapFrom]
    cases v with
    | nil =>
      -- The line ends here, so the word is the first one of the line below.
      rw [List.append_nil] at hnarrowed hfull ⊢
      cases lines with
      | nil => simp [List.intercalate] at hjoined
      | cons next lines =>
        obtain ⟨hrel, hfull⟩ := List.isChain_cons_cons.1 hfull
        rw [intercalate_cons_of_ne_nil [] (List.cons_ne_nil next lines), List.nil_append,
          List.cons.injEq] at hjoined
        obtain ⟨more, rfl, hmore⟩ := exists_append_of_joined hw hjoined.2
        rw [if_neg ((isFull_iff hw hmore).1 hrel), List.nil_append,
          ih hws hjoined.2 (List.forall_mem_cons.1 hnarrowed).2 hfull]
    | cons c v =>
      -- The line goes on behind a space, so it fits, and so does its part up to the word.
      have hcons : [' '].intercalate ((c :: v) :: lines) = c :: [' '].intercalate (v :: lines) :=
        intercalate_append [c] v lines
      rw [hcons, List.cons.injEq] at hjoined
      obtain ⟨rfl, hjoined⟩ := hjoined
      obtain ⟨more, rfl, -⟩ := exists_append_of_joined hw hjoined
      have hmore : line ++ ' ' :: (w ++ more) = line ++ ' ' :: w ++ more := by simp
      rw [hmore] at hnarrowed hfull ⊢
      have hfits : Fits W line w := by
        have hwidth := (hnarrowed _ List.mem_cons_self).resolve_right (by simp)
        rw [width_append] at hwidth
        rw [fits_iff]
        omega
      rw [if_pos hfits]
      refine ih hws ?_ hnarrowed hfull
      rw [intercalate_append, intercalate_append_word,
        intercalate_cons_of_ne_nil line (List.cons_ne_nil w ws), ← hjoined, intercalate_append]
      simp

/-- **Greedy lines** of a text with words are the lines its words are wrapped into. -/
theorem IsGreedy.eq_wrapFrom (h : IsGreedy s W lines) (hs : words isBlank s = w :: ws)
    (hw : ' ' ∉ w) (hws : ∀ w ∈ ws, ' ' ∉ w) : lines = wrapFrom W [] w ws := by
  obtain ⟨line, lines, rfl⟩ := List.exists_cons_of_ne_nil h.ne_nil
  have hjoined := h.joined
  rw [squeeze, hs] at hjoined
  obtain ⟨more, rfl, -⟩ := exists_append_of_joined hw hjoined
  exact eq_wrapFrom_of_isChain hws hjoined h.narrowed h.full

/-! ## (3) The lines of a cell -/

/-- A word holds no space. -/
theorem not_mem_of_mem_words (hw : w ∈ words isBlank s) : ' ' ∉ w := fun hspace => by
  have hblank : isBlank ' ' = false := letter_of_mem_words hw hspace
  exact absurd hblank (by decide)

/-- Filling a line that is begun goes on like wrapping. -/
theorem fillCell_eq_wrapFrom (hne : ∀ w ∈ ws, w ≠ []) (hline : line ≠ []) :
    fillCell W line ws = wrapFrom W [] line ws := by
  have hempty : ∀ {t : Text}, t ≠ [] → ¬t.isEmpty = true := by simp
  induction ws generalizing line with
  | nil => rw [fillCell, if_neg (hempty hline), wrapFrom]
  | cons w ws ih =>
    obtain ⟨hw, hne⟩ := List.forall_mem_cons.1 hne
    rw [fillCell, wrapFrom, if_neg (hempty hline)]
    simp only [← fits_iff]
    split
    · exact ih hne (by simp)
    · rw [if_neg (hempty hline), ih hne hw, List.nil_append]

/-- The first word begins the first line, whether it fits or not. -/
theorem fillCell_nil (width : Int) (w : Text) (ws : List Text) :
    fillCell width [] (w :: ws) = fillCell width w ws := by
  simp [fillCell]

/-- **The lines of a cell** are its words, wrapped. -/
theorem wrapCell_eq_wrapFrom (width : Int) (hs : words isBlank s = w :: ws) :
    wrapCell s width = wrapFrom width [] w ws := by
  have hne : ∀ v ∈ w :: ws, v ≠ [] := by
    intro v hv
    rw [← hs] at hv
    exact ne_nil_of_mem_words hv
  obtain ⟨hw, hws⟩ := List.forall_mem_cons.1 hne
  rw [wrapCell]
  split
  · rename_i hfits
    rw [squeeze, hs] at hfits ⊢
    exact (wrapFrom_of_width_le hfits).symm
  · rw [hs, fillCell_nil, fillCell_eq_wrapFrom hws hw]
    obtain ⟨above, last, hlines⟩ := exists_wrapFrom width [] w ws
    rw [hlines]
    cases above <;> rfl

/-- A cell without words has one empty line. -/
theorem wrapCell_of_words_eq_nil (width : Int) (hs : words isBlank s = []) :
    wrapCell s width = [[]] := by
  simp [wrapCell, squeeze, hs, fillCell, List.intercalate]

/-- **The greedy lines of a text** are the lines of a cell, for every width. -/
theorem isGreedy_iff (s : Text) (width : Int) (lines : List Line) :
    IsGreedy s width lines ↔ lines = wrapCell s width := by
  -- A text without words has one line, and it is empty.
  cases hs : words isBlank s with
  | nil =>
    rw [wrapCell_of_words_eq_nil width hs]
    constructor
    · intro h
      obtain ⟨line, lines, rfl⟩ := List.exists_cons_of_ne_nil h.ne_nil
      obtain ⟨t, ht, -, hnil⟩ := intercalate_cons line lines
      have hjoined := h.joined
      rw [ht, squeeze, hs, List.intercalate_nil, List.append_eq_nil_iff] at hjoined
      rw [hjoined.1, hnil.1 hjoined.2]
    · rintro rfl
      refine ⟨by simp, ?_, ?_, .singleton _⟩
      · simp [squeeze, hs, List.intercalate]
      · simp [IsNarrowed]
  -- The words of the text hold no spaces, so that the lines break between them only.
  | cons w ws =>
    have hwords : ∀ v ∈ w :: ws, ' ' ∉ v := by
      intro v hv
      rw [← hs] at hv
      exact not_mem_of_mem_words hv
    obtain ⟨hw, hws⟩ := List.forall_mem_cons.1 hwords
    rw [wrapCell_eq_wrapFrom width hs]
    constructor
    · intro h
      exact h.eq_wrapFrom hs hw hws
    · rintro rfl
      exact isGreedy_wrapFrom hs hw hws

/-- A word that is too wide, and a blank that is no space. -/
example : wrapCell "ab 漢字漢\tc d".toList 5 = ["ab".toList, "漢字漢".toList, "c d".toList] := by
  decide +kernel

/-- A cell has a line, even if it has no text. -/
theorem wrapCell_ne_nil (s : Text) (width : Int) : wrapCell s width ≠ [] :=
  ((isGreedy_iff s width _).2 rfl).ne_nil

/-- **The lines of a cell** hold its words. -/
theorem flatMap_words_wrapCell (s : Text) (width : Int) :
    (wrapCell s width).flatMap (words isBlank) = words isBlank s := by
  cases hs : words isBlank s with
  | nil => simp [wrapCell_of_words_eq_nil width hs]
  | cons w ws =>
    have hwords : ∀ v ∈ w :: ws, words isBlank v = [v] := by
      intro v hv
      rw [← hs] at hv
      exact words_of_letters (ne_nil_of_mem_words hv) fun c hc => letter_of_mem_words hv hc
    obtain ⟨hw, hws⟩ := List.forall_mem_cons.1 hwords
    rw [wrapCell_eq_wrapFrom width hs, flatMap_words_wrapFrom (by decide) hws, hw,
      List.singleton_append]

/-- The lines of a cell are not wider than the column if its words are not. -/
theorem width_le_of_mem_wrapCell {width : Int} (hwidth : 0 ≤ width)
    (hwords : ∀ w ∈ words isBlank s, (Text.width w : Int) ≤ width) (hl : line ∈ wrapCell s width) :
    (Text.width line : Int) ≤ width := by
  cases hs : words isBlank s with
  | nil =>
    rw [wrapCell_of_words_eq_nil width hs, List.mem_singleton] at hl
    simpa [hl] using hwidth
  | cons w ws =>
    rw [hs] at hwords
    obtain ⟨hw, hws⟩ := List.forall_mem_cons.1 hwords
    rw [wrapCell_eq_wrapFrom width hs] at hl
    exact width_le_of_mem_wrapFrom hw hws line hl

end Table

end ChapterLayout
