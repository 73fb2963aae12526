import Mathlib.Data.List.Pairwise
import Mathlib.Data.List.Permutation
import Mathlib.Data.List.Sort
import Mathlib.Data.Prod.Lex
import ChapterLayout.Proofs.Style.Merge

/-! # The closure of a list of spans

What merging has to give can be said without a word on how it is done: `IsClosure spans merged` asks
for sorted spans that are far apart, hold every given span and owe each of their columns to the
given ones. There is one list of this kind only, and merging finds it:

* **`pairwise_columnKey_mergeSpans`** — merged spans are sorted strictly, and those of one line and
  group have two columns or more between them;
* **`IsClosure.exists_around`** — every span of one closure lies inside a span of any other one;
* **`IsClosure.unique`** — hence two closures of the same spans are the same list;
* **`mergeSpans_isClosure`** — the merged spans are the closure of the given ones;
* **`IsClosure.trans`** — spans that stand for the given ones have the same closure, so it does not
  matter in which order spans are merged, nor whether some of them were merged before
  (`mergeSpans_incremental`). -/

namespace ChapterLayout

/-- What merged spans are sorted by: line, start, end and group. -/
def Span.columnKey (s : Span) : ℤ ×ₗ ℤ ×ₗ ℤ ×ₗ Text :=
  toLex (s.line, toLex (s.startCol, toLex (s.endCol, s.group)))

/-- Whether the spans `merged` are the closure of the given ones. -/
structure IsClosure (spans merged : List Span) : Prop where
  /-- They are sorted by line, start, end and group, and none comes twice. -/
  sorted : merged.Pairwise fun a b => a.columnKey < b.columnKey
  /-- Two of one line and group have more than one column between them. -/
  apart : merged.Pairwise fun a b => a.SameRow b → a.endCol + 1 < b.startCol
  /-- Every given span lies inside one of them. -/
  covering : ∀ s ∈ spans, ∃ m ∈ merged, m.SameRow s ∧ m.startCol ≤ s.startCol ∧
    s.endCol ≤ m.endCol
  /-- They start and end where given spans do, and a column of theirs that no given span covers lies
  between the end of one and the start of another, one column later. -/
  mergedFrom : ∀ m ∈ merged, MergedFrom spans m

variable {spans merged others : List Span} {a b m n : Span}

/-! ## (1) The order of merged spans -/

/-- The key of a span tells it from all others. -/
theorem Span.columnKey_injective : Function.Injective Span.columnKey := by
  intro a b h
  simp only [columnKey, toLex_inj, Prod.mk.injEq] at h
  obtain ⟨hline, hstart, hend, hgroup⟩ := h
  cases a
  cases b
  simp_all

/-- Spans of one row are sorted by their starts. -/
theorem Span.SameRow.startCol_le (hrow : a.SameRow b) (h : a.columnKey ≤ b.columnKey) :
    a.startCol ≤ b.startCol := by
  rw [columnKey, columnKey, Prod.Lex.toLex_le_toLex, Prod.Lex.toLex_le_toLex] at h
  have hline := hrow.1
  dsimp only at h
  omega

/-- The order in which merged spans are put. -/
theorem Span.compareByColumn_isLE : (a.compareByColumn b).isLE = true ↔
    a.columnKey ≤ b.columnKey := by
  rw [Span.compareByColumn, Ordering.isLE_then_iff_or, Ordering.isLE_then_iff_or,
    Ordering.isLE_then_iff_or, compare_lt_iff_lt, compare_eq_iff_eq, compare_lt_iff_lt,
    compare_eq_iff_eq, compare_lt_iff_lt, compare_eq_iff_eq, Ordering.isLE_iff_eq_lt_or_eq_eq,
    compareText_eq_lt, compareText_eq_eq, ← le_iff_lt_or_eq, columnKey, columnKey,
    Prod.Lex.toLex_le_toLex, Prod.Lex.toLex_le_toLex, Prod.Lex.toLex_le_toLex]

/-- Merged spans are sorted by their keys. -/
theorem pairwise_columnKey_le (spans : List Span) :
    (mergeSpans spans).Pairwise fun a b => a.columnKey ≤ b.columnKey := by
  unfold mergeSpans
  split
  · exact List.Pairwise.nil
  · have htrans : ∀ a b c : Span, (a.compareByColumn b).isLE = true →
        (b.compareByColumn c).isLE = true → (a.compareByColumn c).isLE = true := by
      intro a b c hab hbc
      rw [Span.compareByColumn_isLE] at hab hbc ⊢
      exact hab.trans hbc
    have htotal : ∀ a b : Span,
        ((a.compareByColumn b).isLE || (b.compareByColumn a).isLE) = true := by
      intro a b
      rw [Bool.or_eq_true, Span.compareByColumn_isLE, Span.compareByColumn_isLE]
      exact le_total _ _
    exact (List.pairwise_mergeSort htrans htotal _).imp Span.compareByColumn_isLE.1

/-- A merged span does not end before it starts. -/
theorem MergedFrom.startCol_le (h : MergedFrom spans m)
    (hspans : ∀ s ∈ spans, s.startCol ≤ s.endCol) : m.startCol ≤ m.endCol := by
  obtain ⟨a, ha, -, hstart, hend⟩ := h.startCol
  have := hspans a ha
  omega

/-- **Merged spans are sorted strictly**, and those of one row have two columns or more between
them. -/
theorem pairwise_columnKey_mergeSpans (hspans : ∀ s ∈ spans, s.startCol ≤ s.endCol) :
    (mergeSpans spans).Pairwise fun a b =>
      a.columnKey < b.columnKey ∧ (a.SameRow b → a.endCol + 1 < b.startCol) := by
  refine ((pairwise_columnKey_le spans).and (pairwise_mergeSpans spans)).imp_of_mem ?_
  rintro a b ha hb ⟨hle, hapart⟩
  have hcols := (mergedFrom_mergeSpans ha).startCol_le hspans
  have hcols' := (mergedFrom_mergeSpans hb).startCol_le hspans
  have hrow : a.SameRow b → a.endCol + 1 < b.startCol := by
    intro hrow
    have hstart := hrow.startCol_le hle
    rcases hapart hrow with hlt | hlt
    · exact hlt
    · omega
  refine ⟨lt_of_le_of_ne hle fun heq => ?_, hrow⟩
  -- A span is not apart from itself.
  obtain rfl := Span.columnKey_injective heq
  have := hrow ⟨rfl, rfl⟩
  omega

/-- **Merged spans are the closure** of the spans they are merged from. -/
theorem isClosure_mergeSpans (hspans : ∀ s ∈ spans, s.startCol ≤ s.endCol) :
    IsClosure spans (mergeSpans spans) where
  sorted := (pairwise_columnKey_mergeSpans hspans).imp And.left
  apart := (pairwise_columnKey_mergeSpans hspans).imp And.right
  covering _ hs := exists_mergeSpans_covering hs
  mergedFrom _ hm := mergedFrom_mergeSpans hm

/-! ## (2) There is one closure only -/

instance : Std.Symm Span.Apart := ⟨fun _ _ => Span.Apart.symm⟩

namespace IsClosure

/-- Two spans of a closure that are of one row and at most one column apart are the same. -/
theorem eq_of_meet (h : IsClosure spans merged) (hm : m ∈ merged) (hn : n ∈ merged)
    (hrow : m.SameRow n) (hfrom : m.startCol ≤ n.endCol + 1) (hto : n.startCol ≤ m.endCol + 1) :
    m = n := by
  have hapart : merged.Pairwise Span.Apart := h.apart.imp fun h hrow => Or.inl (h hrow)
  by_contra hne
  rcases hapart.forall hm hn hne hrow with hlt | hlt
  · omega
  · omega

/-- What is merged from the given spans does not leave the span of a closure in which it starts. -/
theorem endCol_le (h : IsClosure spans merged) (hspans : ∀ s ∈ spans, s.startCol ≤ s.endCol)
    (hm : MergedFrom spans m) (hn : n ∈ merged) (hrow : n.SameRow m)
    (hfrom : n.startCol ≤ m.startCol) (hto : m.startCol ≤ n.endCol) : m.endCol ≤ n.endCol := by
  by_contra hlt
  -- Whatever accounts for the column at the end of `n` lies in a span that meets `n`.
  have hinside : ∀ s ∈ spans, s.SameRow m → s.startCol ≤ n.endCol + 1 → n.endCol ≤ s.endCol →
      s.endCol ≤ n.endCol := by
    intro s hs hsrow hstart hend
    obtain ⟨n', hn', hrow', hstart', hend'⟩ := h.covering s hs
    have hsame : n.SameRow n' := ⟨hrow.1.trans (hrow'.1.trans hsrow.1).symm,
      hrow.2.trans (hrow'.2.trans hsrow.2).symm⟩
    obtain rfl := h.eq_of_meet hn hn' hsame (by omega) (by omega)
    exact hend'
  rcases hm.between n.endCol hto (not_le.1 hlt) with
    ⟨s, hs, hline, hgroup, hstart, hend⟩ | ⟨-, t, ht, htrow, hstart⟩
  · have := hinside s hs ⟨hline, hgroup⟩ (by omega) (by omega)
    omega
  · have hcols := hspans t ht
    have := hinside t ht htrow (by omega) (by omega)
    omega

/-- **A span of one closure lies inside a span of any other one.** -/
theorem exists_around (h : IsClosure spans merged) (h' : IsClosure spans others)
    (hspans : ∀ s ∈ spans, s.startCol ≤ s.endCol) (hm : m ∈ merged) :
    ∃ n ∈ others, n.SameRow m ∧ n.startCol ≤ m.startCol ∧ m.endCol ≤ n.endCol := by
  obtain ⟨a, ha, harow, hastart, haend⟩ := (h.mergedFrom m hm).startCol
  obtain ⟨n, hn, hnrow, hnstart, hnend⟩ := h'.covering a ha
  have hcols := hspans a ha
  have hrow : n.SameRow m := ⟨hnrow.1.trans harow.1, hnrow.2.trans harow.2⟩
  refine ⟨n, hn, hrow, by omega, ?_⟩
  exact h'.endCol_le hspans (h.mergedFrom m hm) hn hrow (by omega) (by omega)

/-- One closure of the spans is part of every other. -/
theorem subset (h : IsClosure spans merged) (h' : IsClosure spans others)
    (hspans : ∀ s ∈ spans, s.startCol ≤ s.endCol) : merged ⊆ others := by
  intro m hm
  obtain ⟨n, hn, hrow, hstart, hend⟩ := h.exists_around h' hspans hm
  obtain ⟨m', hm', hrow', hstart', hend'⟩ := h'.exists_around h hspans hn
  have hcols := (h.mergedFrom m hm).startCol_le hspans
  -- The span around the span around `m` is `m` again, so all three are the same.
  have hsame : m.SameRow m' := ⟨(hrow'.1.trans hrow.1).symm, (hrow'.2.trans hrow.2).symm⟩
  obtain rfl := h.eq_of_meet hm hm' hsame (by omega) (by omega)
  have hkey : m.columnKey = n.columnKey := by
    rw [Span.columnKey, Span.columnKey, hrow.1, hrow.2, le_antisymm hstart' hstart,
      le_antisymm hend hend']
  rwa [Span.columnKey_injective hkey]

/-- **Two closures of the same spans are the same list.** -/
theorem unique (h : IsClosure spans merged) (h' : IsClosure spans others)
    (hspans : ∀ s ∈ spans, s.startCol ≤ s.endCol) : merged = others := by
  have hkeys : (merged.map Span.columnKey) = others.map Span.columnKey := by
    refine List.SortedLT.eq_of_mem_iff ?_ ?_ fun key => ?_
    · exact (List.pairwise_map.2 h.sorted).sortedLT
    · exact (List.pairwise_map.2 h'.sorted).sortedLT
    · rw [List.mem_map, List.mem_map]
      exact ⟨fun ⟨m, hm, hkey⟩ => ⟨m, h.subset h' hspans hm, hkey⟩,
        fun ⟨m, hm, hkey⟩ => ⟨m, h'.subset h hspans hm, hkey⟩⟩
  exact List.map_injective_iff.2 Span.columnKey_injective hkeys

end IsClosure

/-- **Merging gives the closure of the spans**, and no other list is one. -/
theorem mergeSpans_isClosure (hspans : ∀ s ∈ spans, s.startCol ≤ s.endCol) :
    IsClosure spans (mergeSpans spans) ∧
      ∀ merged, IsClosure spans merged → merged = mergeSpans spans :=
  ⟨isClosure_mergeSpans hspans,
    fun _ hmerged => hmerged.unique (isClosure_mergeSpans hspans) hspans⟩

/-- Two spans of which one holds the other, an empty one a column behind them, another group and
another line. -/
theorem mergeSpans_isClosure_mixed :
    let spans : List Span := [⟨1, 0, 1, ['a']⟩, ⟨0, 3, 3, ['a']⟩, ⟨0, 4, 6, ['b']⟩,
      ⟨0, 1, 2, ['a']⟩, ⟨0, 0, 2, ['a']⟩]
    (∀ s ∈ spans, s.startCol ≤ s.endCol) ∧
      mergeSpans spans = [⟨0, 0, 3, ['a']⟩, ⟨0, 4, 6, ['b']⟩, ⟨1, 0, 1, ['a']⟩] ∧
      IsClosure spans (mergeSpans spans) ∧
      ∀ merged, IsClosure spans merged → merged = mergeSpans spans := by
  intro spans
  have hspans : ∀ s ∈ spans, s.startCol ≤ s.endCol := by decide
  exact ⟨hspans, by cbv, mergeSpans_isClosure hspans⟩

/-! ## (3) Spans that stand for others -/

/-- Whether the spans `others` stand for the given ones: they are merged from them, and hold every
one of them. -/
structure StandFor (others spans : List Span) : Prop where
  mergedFrom : ∀ s ∈ others, MergedFrom spans s
  covering : ∀ s ∈ spans, ∃ m ∈ others, m.SameRow s ∧ m.startCol ≤ s.startCol ∧
    s.endCol ≤ m.endCol

variable {more : List Span}

/-- Being of one line and group is transitive. -/
theorem Span.SameRow.trans {c : Span} (hab : a.SameRow b) (hbc : b.SameRow c) : a.SameRow c :=
  ⟨hab.1.trans hbc.1, hab.2.trans hbc.2⟩

/-- What is merged from spans that are merged themselves is merged from the first ones. -/
theorem MergedFrom.trans (h : MergedFrom others m) (hothers : ∀ s ∈ others, MergedFrom spans s) :
    MergedFrom spans m := by
  refine ⟨?_, ?_, fun col hfrom hto => ?_⟩
  · obtain ⟨b, hb, hrow, hstart, hend⟩ := h.startCol
    obtain ⟨a, ha, harow, hastart, haend⟩ := (hothers b hb).startCol
    exact ⟨a, ha, harow.trans hrow, hastart.trans hstart, haend.trans hend⟩
  · obtain ⟨b, hb, hrow, hend⟩ := h.endCol
    obtain ⟨a, ha, harow, haend⟩ := (hothers b hb).endCol
    exact ⟨a, ha, harow.trans hrow, haend.trans hend⟩
  · rcases h.between col hfrom hto with
      ⟨b, hb, hline, hgroup, hstart, hend⟩ | ⟨⟨b, hb, hbrow, hbend⟩, c, hc, hcrow, hcstart⟩
    · -- The span over the column may itself bridge it.
      have hrow : b.SameRow m := ⟨hline, hgroup⟩
      rcases (hothers b hb).between col hstart hend with
        ⟨s, hs, hsline, hsgroup, hcols⟩ | ⟨⟨s, hs, hsrow, hsend⟩, t, ht, htrow, htstart⟩
      · exact .inl ⟨s, hs, hsline.trans hline, hsgroup.trans hgroup, hcols⟩
      · exact .inr ⟨⟨s, hs, hsrow.trans hrow, hsend⟩, t, ht, htrow.trans hrow, htstart⟩
    · -- The spans on both sides of the column end and start where given ones do.
      obtain ⟨s, hs, hsrow, hsend⟩ := (hothers b hb).endCol
      obtain ⟨t, ht, htrow, htstart, -⟩ := (hothers c hc).startCol
      exact .inr ⟨⟨s, hs, hsrow.trans hbrow, hsend.trans hbend⟩, t, ht, htrow.trans hcrow,
        htstart.trans hcstart⟩

/-- Spans stand for those of any list that consists of the same spans. -/
theorem standFor_of_mem_iff (h : ∀ s, s ∈ others ↔ s ∈ spans) : StandFor others spans where
  mergedFrom s hs := mergedFrom_self ((h s).1 hs)
  covering s hs := ⟨s, (h s).2 hs, ⟨rfl, rfl⟩, le_rfl, le_rfl⟩

/-- Merged spans, with more spans behind them, stand for the ones that were merged and the same
spans behind those. -/
theorem standFor_mergeSpans_append (spans more : List Span) :
    StandFor (mergeSpans spans ++ more) (spans ++ more) where
  mergedFrom s hs := by
    rcases List.mem_append.1 hs with hs | hs
    · refine (mergedFrom_mergeSpans hs).trans fun a ha => ?_
      exact mergedFrom_self (List.mem_append_left more ha)
    · exact mergedFrom_self (List.mem_append_right spans hs)
  covering s hs := by
    rcases List.mem_append.1 hs with hs | hs
    · obtain ⟨m, hm, h⟩ := exists_mergeSpans_covering hs
      exact ⟨m, List.mem_append_left more hm, h⟩
    · exact ⟨s, List.mem_append_right _ hs, ⟨rfl, rfl⟩, le_rfl, le_rfl⟩

/-- **The closure of spans that stand for the given ones** is the closure of the given ones. -/
theorem IsClosure.trans (h : IsClosure others merged) (hstand : StandFor others spans) :
    IsClosure spans merged where
  sorted := h.sorted
  apart := h.apart
  covering s hs := by
    obtain ⟨n, hn, hnrow, hnstart, hnend⟩ := hstand.covering s hs
    obtain ⟨m, hm, hmrow, hmstart, hmend⟩ := h.covering n hn
    exact ⟨m, hm, hmrow.trans hnrow, hmstart.trans hnstart, hnend.trans hmend⟩
  mergedFrom m hm := (h.mergedFrom m hm).trans hstand.mergedFrom

/-- Spans that stand for others are merged into the same spans. -/
theorem StandFor.mergeSpans_eq (h : StandFor others spans)
    (hspans : ∀ s ∈ spans, s.startCol ≤ s.endCol) : mergeSpans others = mergeSpans spans := by
  have hothers : ∀ s ∈ others, s.startCol ≤ s.endCol := fun s hs =>
    (h.mergedFrom s hs).startCol_le hspans
  exact ((isClosure_mergeSpans hothers).trans h).unique (isClosure_mergeSpans hspans) hspans

/-- **Merging in parts.** The order of the spans does not matter, merging merged spans changes
nothing, and spans may be merged before others join them. -/
theorem mergeSpans_incremental (hspans : ∀ s ∈ spans, s.startCol ≤ s.endCol)
    (hmore : ∀ s ∈ more, s.startCol ≤ s.endCol) :
    (∀ others, others.Perm spans → mergeSpans others = mergeSpans spans) ∧
      mergeSpans (mergeSpans spans) = mergeSpans spans ∧
      mergeSpans (mergeSpans spans ++ more) = mergeSpans (spans ++ more) := by
  have hall : ∀ s ∈ spans ++ more, s.startCol ≤ s.endCol := by
    intro s hs
    exact (List.mem_append.1 hs).elim (hspans s) (hmore s)
  refine ⟨fun others hperm => ?_, ?_, ?_⟩
  · exact (standFor_of_mem_iff fun s => hperm.mem_iff).mergeSpans_eq hspans
  · have hstand : StandFor (mergeSpans spans) spans := by
      simpa using standFor_mergeSpans_append spans []
    exact hstand.mergeSpans_eq hspans
  · exact (standFor_mergeSpans_append spans more).mergeSpans_eq hall

/-- Two spans with two columns between them stay apart when they are merged early, and one behind
them joins them all. -/
theorem mergeSpans_incremental_bridge :
    let spans : List Span := [⟨0, 5, 7, ['a']⟩, ⟨0, 0, 3, ['a']⟩, ⟨0, 2, 2, ['b']⟩]
    let more : List Span := [⟨0, 4, 4, ['a']⟩, ⟨0, 3, 3, ['b']⟩]
    (∀ s ∈ spans, s.startCol ≤ s.endCol) ∧ (∀ s ∈ more, s.startCol ≤ s.endCol) ∧
      mergeSpans spans = [⟨0, 0, 3, ['a']⟩, ⟨0, 2, 2, ['b']⟩, ⟨0, 5, 7, ['a']⟩] ∧
      mergeSpans (spans ++ more) = [⟨0, 0, 7, ['a']⟩, ⟨0, 2, 3, ['b']⟩] ∧
      (∀ others, others.Perm spans → mergeSpans others = mergeSpans spans) ∧
      mergeSpans (mergeSpans spans) = mergeSpans spans ∧
      mergeSpans (mergeSpans spans ++ more) = mergeSpans (spans ++ more) := by
  intro spans more
  have hspans : ∀ s ∈ spans, s.startCol ≤ s.endCol := by decide
  have hmore : ∀ s ∈ more, s.startCol ≤ s.endCol := by decide
  exact ⟨hspans, hmore, by cbv, by cbv, mergeSpans_incremental hspans hmore⟩

end ChapterLayout
