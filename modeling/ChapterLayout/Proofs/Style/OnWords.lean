import ChapterLayout.Proofs.Style.Cells
import ChapterLayout.Proofs.Style.Merge

/-! # Records on words

When the words of a line are spread, the records on the line have to follow. They can if they start
and end at letters, and this is what these definitions ask for:

* **`OnWords`** — a record starts and ends at letters of a line; this is kept when the line gets
  longer, is broken behind the record, or the record moves along with its word;
* **`Page.Settled`** — a record stands on a line of the page, on words unless the line is exempt;
* **`Page.Spreadable`** — all records of a page can follow the words, and no line that may be spread
  ends in a space. -/

namespace ChapterLayout

/-- A set of lines holds a line that was put into it, and what it held before. -/
theorem LineSet.mem_insert {i j : Int} {set : LineSet} : j ∈ set.insert i ↔ j = i ∨ j ∈ set := by
  induction set with
  | nil => simp [insert]
  | cons k set ih =>
    rw [insert]
    by_cases hlt : i < k
    · rw [if_pos hlt, List.mem_cons]
    · rw [if_neg hlt]
      by_cases heq : i = k
      · rw [if_pos heq, heq, List.mem_cons, ← or_assoc, or_self]
      · rw [if_neg heq, List.mem_cons, ih, List.mem_cons]
        exact or_left_comm

variable {ρ : Type} [Positioned ρ] {r : ρ} {line : Line}

/-- Whether a record starts and ends at letters of a line. -/
def OnWords (line : Line) (r : ρ) : Prop :=
  ∃ s e : Nat, Positioned.startCol r = s ∧ Positioned.endCol r = e ∧ s < e ∧
    Text.LetterAt line s ∧ Text.LetterAt line (e - 1)

/-- A line that gets longer keeps its records on words. -/
theorem OnWords.append (h : OnWords line r) (s : Text) : OnWords (line ++ s) r := by
  obtain ⟨i, j, hi, hj, hlt, hstart, hend⟩ := h
  exact ⟨i, j, hi, hj, hlt, hstart.append s, hend.append s⟩

/-- The records before a word stay on words when the line is broken before it. -/
theorem OnWords.break (h : OnWords line r) {n : Nat} (hend : Positioned.endCol r ≤ n) :
    OnWords (Text.trimRight Text.isSpace (line.take n)) r := by
  obtain ⟨i, j, hi, hj, hlt, hletter, hletter'⟩ := h
  have hfirst := hletter.take (n := n) (by omega)
  have hlast := hletter'.take (n := n) (by omega)
  exact ⟨i, j, hi, hj, hlt, hfirst.trimRight, hlast.trimRight⟩

/-- The records of a word that moves behind another start move along. -/
theorem OnWords.move (h : OnWords line r) {n : Nat} (hstart : n ≤ Positioned.startCol r)
    {relocated : ρ → ρ} {index : Int} {s : Text}
    (hmove : Relocates relocated index ((s.length : Int) - n)) :
    OnWords (s ++ line.drop n) (relocated r) := by
  obtain ⟨i, j, hi, hj, hlt, hletter, hletter'⟩ := h
  obtain ⟨-, hcol, hcol'⟩ := hmove r
  have hfirst := hletter.move (n := n) (by omega) s
  have hlast := hletter'.move (n := n) (by omega) s
  refine ⟨s.length + (i - n), s.length + (j - n), by omega, by omega, by omega, hfirst, ?_⟩
  have hcolumn : s.length + (j - n) - 1 = s.length + (j - 1 - n) := by omega
  rw [hcolumn]
  exact hlast

/-- The records of a word at the end of a line. -/
theorem onWords_of_columns {word : Text} (hne : word ≠ [])
    (hword : ∀ c ∈ word, Text.isSpace c = false)
    (hstart : Positioned.startCol r = line.length)
    (hend : Positioned.endCol r = (line ++ word).length) : OnWords (line ++ word) r := by
  have hpos : 0 < word.length := List.length_pos_iff.2 hne
  refine ⟨line.length, (line ++ word).length, hstart, hend, ?_, ?_, ?_⟩
  · rw [List.length_append]
    omega
  · rw [Text.letterAt_append_right (Nat.le_refl _)]
    exact Text.letterAt_of_lt hword (by omega)
  · rw [List.length_append, Text.letterAt_append_right (by omega)]
    exact Text.letterAt_of_lt hword (by omega)

/-- Whether a record stands on a line of the page, and if the line is not exempt, on its words. -/
def Page.Settled (page : Page) (r : ρ) : Prop :=
  ∃ (n : Nat) (line : Line), Positioned.line r = n ∧ page.lines[n]? = some line ∧
    ((n : Int) ∈ page.noJustify ∨ OnWords line r)

/-- More lines and more exempt lines keep a record settled. -/
theorem Page.Settled.mono {page page' : Page} (h : page.Settled r) {lines : List Line}
    (hlines : page'.lines = page.lines ++ lines)
    (hset : ∀ i ∈ page.noJustify, i ∈ page'.noJustify) : page'.Settled r := by
  obtain ⟨n, line, hline, hmem, hwords⟩ := h
  refine ⟨n, line, hline, ?_, hwords.imp (hset _) id⟩
  rw [hlines, List.getElem?_append_left (List.getElem?_eq_some_iff.1 hmem).1, hmem]

/-- A record that is settled is on a line of the page. -/
theorem Page.Settled.line_lt {page : Page} (h : page.Settled r) :
    Positioned.line r < page.lines.length := by
  obtain ⟨n, line, hline, hmem, -⟩ := h
  have := (List.getElem?_eq_some_iff.1 hmem).1
  omega

/-- Whether a record can follow the words of its line: the line is exempt, or the record stands on
words. A record without a line has nothing to follow. -/
def Page.CanFollow (page : Page) (r : ρ) : Prop :=
  ∀ (n : Nat) (line : Line), Positioned.line r = n → page.lines[n]? = some line →
    (n : Int) ∈ page.noJustify ∨ OnWords line r

/-- A settled record can follow the words of its line. -/
theorem Page.Settled.canFollow {page : Page} (h : page.Settled r) : page.CanFollow r := by
  intro n line hline hmem
  obtain ⟨k, other, hk, hother, hwords⟩ := h
  obtain rfl : n = k := by omega
  rw [hmem] at hother
  obtain rfl := Option.some.inj hother
  exact hwords

/-- Merged spans of spans on words are on words. -/
theorem MergedFrom.onWords {spans : List Span} {merged : Span}
    (h : MergedFrom spans merged) (hwords : ∀ a ∈ spans, a.line = merged.line → OnWords line a) :
    OnWords line merged := by
  -- The first letter is that of one span, and the last letter that of another.
  obtain ⟨a, ha, harow, hastart, haend⟩ := h.startCol
  obtain ⟨b, hb, hbrow, hbend⟩ := h.endCol
  obtain ⟨i, i', hi, hi', hlt, hletter, -⟩ := hwords a ha harow.1
  obtain ⟨j, j', hj, hj', -, -, hletter'⟩ := hwords b hb hbrow.1
  refine ⟨i, j', hastart.symm.trans hi, hbend.symm.trans hj', ?_, hletter, hletter'⟩
  have hend : (Positioned.endCol a : Int) ≤ Positioned.endCol b := haend.trans hbend.symm.le
  omega

/-- Whether no line ends in a space, except for the exempt ones. -/
def Page.LinesTrimmed (page : Page) : Prop :=
  ∀ (n : Nat) (line : Line), page.lines[n]? = some line →
    (n : Int) ∈ page.noJustify ∨ line.getLast? ≠ some ' '

/-- One line more that is exempt or does not end in a space. -/
theorem Page.LinesTrimmed.concat {page page' : Page} (h : page.LinesTrimmed)
    (hlines : page'.lines = page.lines ++ [line])
    (hset : ∀ i ∈ page.noJustify, i ∈ page'.noJustify)
    (hlast : (page.lines.length : Int) ∈ page'.noJustify ∨ line.getLast? ≠ some ' ') :
    page'.LinesTrimmed := by
  intro n other hother
  rw [hlines] at hother
  by_cases hn : n < page.lines.length
  · rw [List.getElem?_append_left hn] at hother
    exact (h n other hother).imp (hset _) id
  · obtain rfl : n = page.lines.length := by
      have := (List.getElem?_eq_some_iff.1 hother).1
      rw [List.length_append, List.length_singleton] at this
      omega
    rw [List.getElem?_append_right (Nat.le_refl _), Nat.sub_self] at hother
    obtain rfl : line = other := by simpa using hother
    exact hlast

/-- Whether the words of the lines that are not exempt can be spread: the lines do not end in a
space, and all records can follow. -/
structure Page.Spreadable (page : Page) : Prop where
  lines : page.LinesTrimmed
  highlights : ∀ r ∈ page.highlights, page.CanFollow r
  links : ∀ r ∈ page.links, page.CanFollow r
  images : ∀ r ∈ page.images, page.CanFollow r

end ChapterLayout
