import Mathlib.Data.Char
import Mathlib.Data.Int.Order.Basic
import Mathlib.Data.List.Lex
import ChapterLayout.Style.Span

/-! # What merging does to the painted columns

`mergeSpans` joins the spans of one line and group that are at most one column apart. Against the
spans it is given:

* **`mergedFrom_mergeSpans`** — every merged span starts where a given one starts, ends where a
  given one ends, and every column of it is painted by a given one, or is the only column between
  two given ones (`MergedFrom`);
* **`exists_mergeSpans_covering`** — every given span lies inside a merged one;
* **`pairwise_mergeSpans`** — merged spans of one line and group have two columns or more between
  them, so a span over a whole line is the only one of its group there (`filter_row_eq`). -/

namespace ChapterLayout

/-- Whether two spans are of the same line and group. -/
def Span.SameRow (a b : Span) : Prop := a.line = b.line ∧ a.group = b.group

/-- Whether one of the spans paints a column of a line with a group. -/
def Painted (spans : List Span) (line col : Int) (group : Group) : Prop :=
  ∃ s ∈ spans, s.line = line ∧ s.group = group ∧ s.startCol ≤ col ∧ col < s.endCol

/-- What a merged span owes to the spans it is merged from. -/
structure MergedFrom (spans : List Span) (merged : Span) : Prop where
  startCol : ∃ a ∈ spans, a.SameRow merged ∧ a.startCol = merged.startCol ∧
    a.endCol ≤ merged.endCol
  endCol : ∃ b ∈ spans, b.SameRow merged ∧ b.endCol = merged.endCol
  /-- A column that none of the spans paints is the only one between two of them. -/
  between : ∀ col, merged.startCol ≤ col → col < merged.endCol →
    Painted spans merged.line col merged.group ∨
      (∃ a ∈ spans, a.SameRow merged ∧ a.endCol = col) ∧
        ∃ b ∈ spans, b.SameRow merged ∧ b.startCol = col + 1

variable {spans rest : List Span} {current next merged span : Span} {line col : Int} {group : Group}

/-! ## (1) The columns of a merged span -/

/-- A span is merged from itself. -/
theorem mergedFrom_self (h : span ∈ spans) : MergedFrom spans span :=
  ⟨⟨span, h, ⟨rfl, rfl⟩, rfl, le_rfl⟩, ⟨span, h, ⟨rfl, rfl⟩, rfl⟩,
    fun _ hstart hend => Or.inl ⟨span, h, rfl, rfl, hstart, hend⟩⟩

/-- A span is joined to the next one of its row that starts at most one column behind its end. -/
theorem Span.joins_iff : current.joins next = true ↔
    next.SameRow current ∧ next.startCol ≤ current.endCol + 1 := by
  simp [Span.joins, SameRow, and_assoc]

/-- Joining one more span keeps what a merged span owes to the spans. -/
theorem MergedFrom.join (h : MergedFrom spans current) (hnext : next ∈ spans)
    (hjoins : current.joins next = true) :
    MergedFrom spans { current with endCol := max current.endCol next.endCol } := by
  obtain ⟨hrow, hstart⟩ := Span.joins_iff.1 hjoins
  refine ⟨?_, ?_, fun col hfrom hto => ?_⟩
  · obtain ⟨a, ha, harow, hastart, haend⟩ := h.startCol
    exact ⟨a, ha, harow, hastart, haend.trans (le_max_left _ _)⟩
  · rcases le_total current.endCol next.endCol with hle | hle
    · exact ⟨next, hnext, hrow, (max_eq_right hle).symm⟩
    · obtain ⟨b, hb, hbrow, hbend⟩ := h.endCol
      exact ⟨b, hb, hbrow, hbend.trans (max_eq_left hle).symm⟩
  · -- Behind the columns the merged span had already comes the span that joins it.
    by_cases hin : col < current.endCol
    · exact h.between col hfrom hin
    · have hto' : col < next.endCol := by
        change col < max current.endCol next.endCol at hto
        omega
      by_cases hnextcol : next.startCol ≤ col
      · exact Or.inl ⟨next, hnext, hrow.1, hrow.2, hnextcol, hto'⟩
      · -- The column lies between the two spans, and there is room for no other one.
        obtain ⟨a, ha, harow, haend⟩ := h.endCol
        exact Or.inr ⟨⟨a, ha, harow, by omega⟩, next, hnext, hrow, by omega⟩

/-- What joining makes of spans is merged from them. -/
theorem mergedFrom_mergeInto (h : MergedFrom spans current) (hrest : ∀ s ∈ rest, s ∈ spans)
    (hm : merged ∈ mergeInto current rest) : MergedFrom spans merged := by
  induction rest generalizing current with
  | nil =>
    rw [mergeInto, List.mem_singleton] at hm
    rwa [hm]
  | cons next rest ih =>
    have hnext := hrest next List.mem_cons_self
    have hrest' : ∀ s ∈ rest, s ∈ spans := fun s hs => hrest s (List.mem_cons_of_mem _ hs)
    rw [mergeInto] at hm
    by_cases hjoins : current.joins next = true
    · rw [if_pos hjoins] at hm
      exact ih (h.join hnext hjoins) hrest' hm
    · rw [if_neg hjoins, List.mem_cons] at hm
      rcases hm with rfl | hm
      · exact h
      · exact ih (mergedFrom_self hnext) hrest' hm

/-- **Merged spans** start and end where given ones do, and hold no column but those of the given
ones and the single columns between two of them. -/
theorem mergedFrom_mergeSpans (hm : merged ∈ mergeSpans spans) : MergedFrom spans merged := by
  unfold mergeSpans at hm
  cases hsort : spans.mergeSort fun a b => (a.compareByGroup b).isLE with
  | nil => simp [hsort] at hm
  | cons first rest =>
    have hmem : ∀ s ∈ first :: rest, s ∈ spans := by
      intro s hs
      rw [← hsort] at hs
      exact List.mem_mergeSort.1 hs
    simp only [hsort, List.mem_mergeSort] at hm
    exact mergedFrom_mergeInto (mergedFrom_self (hmem first List.mem_cons_self))
      (fun s hs => hmem s (List.mem_cons_of_mem _ hs)) hm

/-- A column that merged spans paint is painted by the given ones, or both columns beside it are. -/
theorem painted_of_mergeSpans (hspans : ∀ s ∈ spans, s.startCol < s.endCol)
    (h : Painted (mergeSpans spans) line col group) :
    Painted spans line col group ∨
      Painted spans line (col - 1) group ∧ Painted spans line (col + 1) group := by
  obtain ⟨merged, hm, rfl, rfl, hstart, hend⟩ := h
  refine ((mergedFrom_mergeSpans hm).between col hstart hend).imp id ?_
  rintro ⟨⟨a, ha, harow, haend⟩, b, hb, hbrow, hbstart⟩
  have hapos := hspans a ha
  have hbpos := hspans b hb
  exact ⟨⟨a, ha, harow.1, harow.2, by omega, by omega⟩,
    ⟨b, hb, hbrow.1, hbrow.2, by omega, by omega⟩⟩

/-! ## (2) The spans inside the merged ones -/

/-- A span that stands before another one of its row does not start after it. -/
def Span.Before (a b : Span) : Prop := a.SameRow b → a.startCol ≤ b.startCol

/-- Texts are compared in the order of their characters. -/
theorem compareText_eq_lt {s t : Text} : compareText s t = .lt ↔ s < t := compareOfLessAndEq_eq_lt

/-- Texts compare as equal just if they are. -/
theorem compareText_eq_eq {s t : Text} : compareText s t = .eq ↔ s = t :=
  compareOfLessAndEq_eq_eq le_refl not_le

/-- The order in which spans are merged. -/
theorem Span.compareByGroup_isLE {a b : Span} : (a.compareByGroup b).isLE = true ↔
    a.line < b.line ∨ a.line = b.line ∧ (a.group < b.group ∨ a.group = b.group ∧
      (a.startCol < b.startCol ∨ a.startCol = b.startCol ∧ a.endCol ≤ b.endCol)) := by
  rw [Span.compareByGroup, Ordering.isLE_then_iff_or, Ordering.isLE_then_iff_or,
    Ordering.isLE_then_iff_or, compare_lt_iff_lt, compare_eq_iff_eq, compareText_eq_lt,
    compareText_eq_eq, compare_lt_iff_lt, compare_eq_iff_eq, Ordering.isLE_iff_ne_gt,
    ← ne_eq, compare_le_iff_le]

/-- The order of spans by group is transitive. -/
theorem Span.compareByGroup_trans (a b c : Span) (hab : (a.compareByGroup b).isLE = true)
    (hbc : (b.compareByGroup c).isLE = true) : (a.compareByGroup c).isLE = true := by
  rw [Span.compareByGroup_isLE] at hab hbc ⊢
  rcases hab with hab | ⟨hab, hab' | ⟨hab', hab''⟩⟩
  · rcases hbc with hbc | ⟨hbc, -⟩
    · exact Or.inl (hab.trans hbc)
    · exact Or.inl (hbc ▸ hab)
  · rcases hbc with hbc | ⟨hbc, hbc' | ⟨hbc', -⟩⟩
    · exact Or.inl (hab ▸ hbc)
    · exact Or.inr ⟨hab.trans hbc, Or.inl (hab'.trans hbc')⟩
    · exact Or.inr ⟨hab.trans hbc, Or.inl (hbc' ▸ hab')⟩
  · rcases hbc with hbc | ⟨hbc, hbc' | ⟨hbc', hbc''⟩⟩
    · exact Or.inl (hab ▸ hbc)
    · exact Or.inr ⟨hab.trans hbc, Or.inl (hab' ▸ hbc')⟩
    · exact Or.inr ⟨hab.trans hbc, Or.inr ⟨hab'.trans hbc', by omega⟩⟩

/-- The order of spans by group is total. -/
theorem Span.compareByGroup_total (a b : Span) :
    ((a.compareByGroup b).isLE || (b.compareByGroup a).isLE) = true := by
  rw [Bool.or_eq_true, Span.compareByGroup_isLE, Span.compareByGroup_isLE]
  rcases lt_trichotomy a.line b.line with h | h | h
  · exact Or.inl (Or.inl h)
  · rcases lt_trichotomy a.group b.group with hg | hg | hg
    · exact Or.inl (Or.inr ⟨h, Or.inl hg⟩)
    · by_cases hle : a.startCol < b.startCol ∨ a.startCol = b.startCol ∧ a.endCol ≤ b.endCol
      · exact Or.inl (Or.inr ⟨h, Or.inr ⟨hg, hle⟩⟩)
      · exact Or.inr (Or.inr ⟨h.symm, Or.inr ⟨hg.symm, by omega⟩⟩)
    · exact Or.inr (Or.inr ⟨h.symm, Or.inl hg⟩)
  · exact Or.inr (Or.inl h)

/-- In the order by group, spans of a row are in the order of their starts. -/
theorem Span.before_of_compareByGroup {a b : Span} (h : (a.compareByGroup b).isLE = true) :
    a.Before b := by
  rintro ⟨hline, hgroup⟩
  rcases Span.compareByGroup_isLE.1 h with hlt | ⟨-, hlt | ⟨-, hlt | ⟨heq, -⟩⟩⟩
  · omega
  · rw [hgroup] at hlt
    exact absurd hlt (lt_irrefl _)
  · omega
  · omega

/-- Spans that are in order before and after they are joined are only joined. -/
theorem mergeSpans_of_pairwise {first : Span} {rest : List Span}
    (hsorted : (first :: rest).Pairwise fun a b => (a.compareByGroup b).isLE = true)
    (hmerged : (mergeInto first rest).Pairwise fun a b => (a.compareByColumn b).isLE = true) :
    mergeSpans (first :: rest) = mergeInto first rest := by
  rw [mergeSpans, List.mergeSort_of_pairwise hsorted]
  exact List.mergeSort_of_pairwise hmerged

/-- Two spans of one row with a single column between them are merged. -/
theorem mergeSpans_apart {startCol endCol stop : Int} (hstart : startCol ≤ endCol + 1)
    (hstop : endCol ≤ stop) :
    mergeSpans [⟨line, startCol, endCol, group⟩, ⟨line, endCol + 1, stop, group⟩] =
      [⟨line, startCol, stop, group⟩] := by
  have hsorted :
      [(⟨line, startCol, endCol, group⟩ : Span), ⟨line, endCol + 1, stop, group⟩].Pairwise
      fun a b => (a.compareByGroup b).isLE = true := by
    rw [List.pairwise_pair, Span.compareByGroup_isLE]
    refine Or.inr ⟨rfl, Or.inr ⟨rfl, ?_⟩⟩
    show startCol < endCol + 1 ∨ startCol = endCol + 1 ∧ endCol ≤ stop
    omega
  have hjoins : Span.joins ⟨line, startCol, endCol, group⟩ ⟨line, endCol + 1, stop, group⟩ = true :=
    Span.joins_iff.2 ⟨⟨rfl, rfl⟩, le_rfl⟩
  have hjoined : mergeInto ⟨line, startCol, endCol, group⟩ [⟨line, endCol + 1, stop, group⟩] =
      [⟨line, startCol, stop, group⟩] := by
    simp only [mergeInto, hjoins, if_true, max_eq_right hstop]
  rw [mergeSpans_of_pairwise hsorted (hjoined ▸ List.pairwise_singleton _ _), hjoined]

/-- The span that is being filled ends up inside a merged one. -/
theorem exists_mergeInto_current (current : Span) (rest : List Span) :
    ∃ m ∈ mergeInto current rest, m.SameRow current ∧ m.startCol = current.startCol ∧
      current.endCol ≤ m.endCol := by
  induction rest generalizing current with
  | nil => exact ⟨current, by simp [mergeInto], ⟨rfl, rfl⟩, rfl, le_rfl⟩
  | cons next rest ih =>
    rw [mergeInto]
    by_cases hjoins : current.joins next = true
    · rw [if_pos hjoins]
      obtain ⟨m, hm, hrow, hstart, hend⟩ :=
        ih { current with endCol := max current.endCol next.endCol }
      exact ⟨m, hm, hrow, hstart, (le_max_left _ _).trans hend⟩
    · rw [if_neg hjoins]
      exact ⟨current, List.mem_cons_self, ⟨rfl, rfl⟩, rfl, le_rfl⟩

/-- Joining in order leaves every span inside a merged one. -/
theorem exists_mergeInto_covering (hsorted : (current :: rest).Pairwise Span.Before)
    (hs : span ∈ rest) :
    ∃ m ∈ mergeInto current rest, m.SameRow span ∧ m.startCol ≤ span.startCol ∧
      span.endCol ≤ m.endCol := by
  induction rest generalizing current with
  | nil => simp at hs
  | cons next rest ih =>
    obtain ⟨hfirst, htail⟩ := List.pairwise_cons.1 hsorted
    rw [mergeInto]
    by_cases hjoins : current.joins next = true
    · rw [if_pos hjoins]
      -- The spans are sorted, so the one that is being filled starts first and keeps its start.
      have hrow := (Span.joins_iff.1 hjoins).1
      have hnext : current.startCol ≤ next.startCol :=
        hfirst next List.mem_cons_self ⟨hrow.1.symm, hrow.2.symm⟩
      rcases List.mem_cons.1 hs with rfl | hs
      · obtain ⟨m, hm, hmrow, hstart, hend⟩ := exists_mergeInto_current
          { current with endCol := max current.endCol span.endCol } rest
        refine ⟨m, hm, ⟨hmrow.1.trans hrow.1.symm, hmrow.2.trans hrow.2.symm⟩, ?_,
          (le_max_right _ _).trans hend⟩
        rw [hstart]
        exact hnext
      · refine ih (List.pairwise_cons.2 ⟨fun s hs hrow' => ?_, (List.pairwise_cons.1 htail).2⟩) hs
        exact hfirst s (List.mem_cons_of_mem _ hs) hrow'
    · rw [if_neg hjoins]
      rcases List.mem_cons.1 hs with rfl | hs
      · obtain ⟨m, hm, hmrow, hstart, hend⟩ := exists_mergeInto_current span rest
        exact ⟨m, List.mem_cons_of_mem _ hm, hmrow, hstart.le, hend⟩
      · obtain ⟨m, hm, h⟩ := ih htail hs
        exact ⟨m, List.mem_cons_of_mem _ hm, h⟩

/-- **No span is lost.** Every given span lies inside a merged one of its line and group. -/
theorem exists_mergeSpans_covering (hs : span ∈ spans) :
    ∃ m ∈ mergeSpans spans, m.SameRow span ∧ m.startCol ≤ span.startCol ∧
      span.endCol ≤ m.endCol := by
  have hpairwise :=
    List.pairwise_mergeSort Span.compareByGroup_trans Span.compareByGroup_total spans
  have hmem : span ∈ spans.mergeSort fun a b => (a.compareByGroup b).isLE :=
    List.mem_mergeSort.2 hs
  unfold mergeSpans
  cases hsort : spans.mergeSort fun a b => (a.compareByGroup b).isLE with
  | nil => simp [hsort] at hmem
  | cons first rest =>
    rw [hsort] at hmem hpairwise
    have hsorted : (first :: rest).Pairwise Span.Before :=
      hpairwise.imp Span.before_of_compareByGroup
    -- The result is sorted once more, which does not change what is in it.
    have hcover : ∃ m ∈ mergeInto first rest, m.SameRow span ∧ m.startCol ≤ span.startCol ∧
        span.endCol ≤ m.endCol := by
      rcases List.mem_cons.1 hmem with rfl | hmem
      · obtain ⟨m, hm, hrow, hstart, hend⟩ := exists_mergeInto_current span rest
        exact ⟨m, hm, hrow, hstart.le, hend⟩
      · exact exists_mergeInto_covering hsorted hmem
    obtain ⟨m, hm, h⟩ := hcover
    exact ⟨m, List.mem_mergeSort.2 hm, h⟩

/-- Merging keeps every column painted. -/
theorem Painted.mergeSpans (h : Painted spans line col group) :
    Painted (mergeSpans spans) line col group := by
  obtain ⟨s, hs, rfl, rfl, hstart, hend⟩ := h
  obtain ⟨m, hm, hrow, hmstart, hmend⟩ := exists_mergeSpans_covering hs
  exact ⟨m, hm, hrow.1, hrow.2, hmstart.trans hstart, hend.trans_le hmend⟩

/-! ## (3) The columns between merged spans -/

/-- Whether two spans, if they are of one row, have two columns or more between them. -/
def Span.Apart (a b : Span) : Prop :=
  a.SameRow b → a.endCol + 1 < b.startCol ∨ b.endCol + 1 < a.startCol

/-- Being apart is symmetric. -/
theorem Span.Apart.symm {a b : Span} (h : a.Apart b) : b.Apart a := by
  rintro ⟨hline, hgroup⟩
  exact (h ⟨hline.symm, hgroup.symm⟩).symm

/-- Whether a span comes before another one by line, group and start. -/
def Span.NotAfter (a b : Span) : Prop :=
  a.line < b.line ∨ a.line = b.line ∧ (a.group < b.group ∨
    a.group = b.group ∧ a.startCol ≤ b.startCol)

/-- The order by group is the one by line, group and start. -/
theorem Span.notAfter_of_compareByGroup {a b : Span} (h : (a.compareByGroup b).isLE = true) :
    a.NotAfter b := by
  rcases Span.compareByGroup_isLE.1 h with hlt | ⟨hline, hlt | ⟨hgroup, hcols⟩⟩
  · exact .inl hlt
  · exact .inr ⟨hline, .inl hlt⟩
  · refine .inr ⟨hline, .inr ⟨hgroup, ?_⟩⟩
    omega

/-- Spans of one row are not interrupted by another row. -/
theorem Span.NotAfter.sameRow {a b c : Span} (hab : a.NotAfter b) (hbc : b.NotAfter c)
    (hac : a.SameRow c) : b.SameRow a ∧ b.startCol ≤ c.startCol := by
  obtain ⟨hline, hgroup⟩ := hac
  rcases hbc with hlt | ⟨hbc, hlt | ⟨hgroup', hle⟩⟩
  · rcases hab with hlt' | ⟨heq, -⟩
    · omega
    · omega
  · rcases hab with hlt' | ⟨-, hlt' | ⟨heq, -⟩⟩
    · omega
    · exact absurd (hlt'.trans (hgroup ▸ hlt)) (lt_irrefl _)
    · exact absurd (hgroup ▸ heq ▸ hlt) (lt_irrefl _)
  · exact ⟨⟨hbc.trans hline.symm, hgroup'.trans hgroup.symm⟩, hle⟩

/-- The spans behind one that the next span does not join start two columns behind its end. -/
theorem apart_mergeInto (hsorted : (current :: next :: rest).Pairwise Span.NotAfter)
    (hjoins : ¬current.joins next = true) (hm : merged ∈ mergeInto next rest) :
    current.Apart merged := by
  intro hrow
  obtain ⟨hcurrent, htail⟩ := List.pairwise_cons.1 hsorted
  have hfrom : MergedFrom (next :: rest) merged :=
    mergedFrom_mergeInto (mergedFrom_self List.mem_cons_self)
      (fun s hs => List.mem_cons_of_mem _ hs) hm
  obtain ⟨a, ha, harow, hastart, -⟩ := hfrom.startCol
  have hrow' : current.SameRow a := ⟨hrow.1.trans harow.1.symm, hrow.2.trans harow.2.symm⟩
  have hnext : next.SameRow current ∧ next.startCol ≤ a.startCol := by
    rcases List.mem_cons.1 ha with rfl | ha
    · exact ⟨⟨hrow'.1.symm, hrow'.2.symm⟩, le_rfl⟩
    · exact (hcurrent next List.mem_cons_self).sameRow ((List.pairwise_cons.1 htail).1 a ha) hrow'
  have hgap : ¬next.startCol ≤ current.endCol + 1 := fun hle =>
    hjoins (Span.joins_iff.2 ⟨hnext.1, hle⟩)
  left
  omega

/-- Joining in order leaves merged spans apart from one another. -/
theorem pairwise_mergeInto (hsorted : (current :: rest).Pairwise Span.NotAfter) :
    (mergeInto current rest).Pairwise Span.Apart := by
  induction rest generalizing current with
  | nil => exact List.pairwise_singleton _ _
  | cons next rest ih =>
    obtain ⟨hcurrent, htail⟩ := List.pairwise_cons.1 hsorted
    rw [mergeInto]
    by_cases hjoins : current.joins next = true
    · rw [if_pos hjoins]
      apply ih
      -- A span that gets longer keeps its place among the others.
      apply List.pairwise_cons.2
      refine ⟨fun s hs => ?_, (List.pairwise_cons.1 htail).2⟩
      exact hcurrent s (List.mem_cons_of_mem _ hs)
    · rw [if_neg hjoins]
      apply List.pairwise_cons.2
      exact ⟨fun merged hm => apart_mergeInto hsorted hjoins hm, ih htail⟩

/-- **Merged spans** of one line and group have two columns or more between them. -/
theorem pairwise_mergeSpans (spans : List Span) : (mergeSpans spans).Pairwise Span.Apart := by
  have hpairwise :=
    List.pairwise_mergeSort Span.compareByGroup_trans Span.compareByGroup_total spans
  unfold mergeSpans
  cases hsort : spans.mergeSort fun a b => (a.compareByGroup b).isLE with
  | nil => exact List.Pairwise.nil
  | cons first rest =>
    rw [hsort] at hpairwise
    have hmerged := pairwise_mergeInto (hpairwise.imp Span.notAfter_of_compareByGroup)
    exact ((List.mergeSort_perm _ _).pairwise_iff fun h => h.symm).2 hmerged

/-- **A span that no other one of its row leaves** is the only one of its row. -/
theorem filter_row_eq (h : spans.Pairwise Span.Apart) (hspan : span ∈ spans)
    (hin : ∀ s ∈ spans, s.SameRow span → span.startCol ≤ s.startCol ∧ s.startCol ≤ s.endCol ∧
      s.endCol ≤ span.endCol) :
    spans.filter (fun s => s.line = span.line ∧ s.group = span.group) = [span] := by
  obtain ⟨before, after, rfl⟩ := List.append_of_mem hspan
  obtain ⟨-, hafter, hbefore⟩ := List.pairwise_append.1 h
  have hother : ∀ s ∈ before ++ span :: after, s.Apart span →
      ¬(decide (s.line = span.line ∧ s.group = span.group)) = true := by
    intro s hs hapart hrow
    rw [decide_eq_true_eq] at hrow
    obtain ⟨hstart, hcols, hend⟩ := hin s hs hrow
    rcases hapart hrow with hlt | hlt
    · omega
    · omega
  have hnone : before.filter (fun s => s.line = span.line ∧ s.group = span.group) = [] := by
    apply List.filter_eq_nil_iff.2
    intro s hs
    exact hother s (List.mem_append_left _ hs) (hbefore s hs span List.mem_cons_self)
  have hnone' : after.filter (fun s => s.line = span.line ∧ s.group = span.group) = [] := by
    apply List.filter_eq_nil_iff.2
    intro s hs
    exact hother s (List.mem_append_right _ (List.mem_cons_of_mem _ hs))
      ((List.pairwise_cons.1 hafter).1 s hs).symm
  rw [List.filter_append, List.filter_cons_of_pos (by simp), hnone, hnone']
  rfl

end ChapterLayout
