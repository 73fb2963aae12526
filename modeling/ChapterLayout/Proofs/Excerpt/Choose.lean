import Mathlib.Data.List.Infix
import ChapterLayout.Excerpt.Find

/-! # The occurrence that counts

A quote may stand in a text more than once. Its occurrences are the ways of cutting the text into
what comes before, the quote and what comes after:

* **`Query.mem_occurrencesAfter`** — all of them are found, each with the context it shares;
* **`Occurrence.isFirstBest_of_best?`** — the one that counts has the greatest score and is the
  first such;
* **`Query.choose?_surrounded`** — hence it is the first one with all of the context around it, if
  there is any. -/

namespace ChapterLayout.Quote

/-! ## (1) Common starts -/

/-- The common start is no longer than the second text. -/
theorem commonStart_le (s t : Text) : commonStart s t ≤ t.length := by
  induction t generalizing s with
  | nil => cases s <;> exact Nat.le_refl 0
  | cons d t ih =>
    cases s with
    | nil => exact Nat.zero_le _
    | cons c s =>
      rw [commonStart]
      split
      · exact Nat.succ_le_succ (ih s)
      · exact Nat.zero_le _

/-- A text is all of the common start if and only if the other one starts with it. -/
theorem length_le_commonStart_iff {s t : Text} : t.length ≤ commonStart s t ↔ t <+: s := by
  induction t generalizing s with
  | nil => simp
  | cons d t ih =>
    cases s with
    | nil => simp [commonStart]
    | cons c s =>
      rw [commonStart, List.cons_prefix_cons, ← ih]
      by_cases hcd : c = d
      · simp [hcd]
      · simp [hcd, Ne.symm hcd]

/-! ## (2) The best occurrence -/

namespace Occurrence

variable {l : List Occurrence} {o p : Occurrence}

/-- Whether an occurrence is the first of those with the greatest score: the ones before it have a
smaller score, and the ones behind it have none that is greater. -/
def IsFirstBest (l : List Occurrence) (o : Occurrence) : Prop :=
  ∃ before after, l = before ++ o :: after ∧
    (∀ p ∈ before, p.score < o.score) ∧ ∀ p ∈ after, p.score ≤ o.score

/-- The first best occurrence is one of them. -/
theorem IsFirstBest.mem (h : IsFirstBest l o) : o ∈ l := by
  obtain ⟨before, after, rfl, -, -⟩ := h
  simp

/-- An occurrence whose score is as great does not come before the first best one. -/
theorem IsFirstBest.start_le (h : IsFirstBest l o) (hl : l.Pairwise (·.start < ·.start))
    (hp : p ∈ l) (hscore : o.score ≤ p.score) : o.start ≤ p.start := by
  obtain ⟨before, after, rfl, hbefore, -⟩ := h
  rcases List.mem_append.1 hp with hp | hp
  · exact absurd (hbefore p hp) (Nat.not_lt.2 hscore)
  · rcases List.mem_cons.1 hp with rfl | hp
    · exact Nat.le_refl _
    · exact Nat.le_of_lt ((List.pairwise_cons.1 (List.pairwise_append.1 hl).2.1).1 p hp)

/-- No occurrence has a greater score than the first best one. -/
theorem IsFirstBest.score_le (h : IsFirstBest l o) (hp : p ∈ l) : p.score ≤ o.score := by
  obtain ⟨before, after, rfl, hbefore, hafter⟩ := h
  rcases List.mem_append.1 hp with hp | hp
  · exact Nat.le_of_lt (hbefore p hp)
  · rcases List.mem_cons.1 hp with rfl | hp
    · exact Nat.le_refl _
    · exact hafter p hp

/-- **The best occurrence** is the first of those with the greatest score. -/
theorem isFirstBest_of_best? (h : best? l = some o) : IsFirstBest l o := by
  induction l generalizing o with
  | nil => cases h
  | cons first l ih =>
    rw [best?] at h
    cases hrest : best? l with
    | none =>
      -- Nothing stands behind the first occurrence.
      rw [hrest] at h
      obtain rfl := Option.some.inj h
      obtain rfl : l = [] := by
        cases l with
        | nil => rfl
        | cons q l =>
          rw [best?] at hrest
          split at hrest
          · cases hrest
          · split at hrest <;> cases hrest
      exact ⟨[], [], rfl, by simp, by simp⟩
    | some q =>
      rw [hrest] at h
      dsimp only at h
      have hq := ih hrest
      split at h
      · rename_i hlt
        obtain rfl := Option.some.inj h
        obtain ⟨before, after, hl, hbefore, hafter⟩ := hq
        exact ⟨first :: before, after, by rw [hl]; rfl, List.forall_mem_cons.2 ⟨hlt, hbefore⟩,
          hafter⟩
      · rename_i hle
        obtain rfl := Option.some.inj h
        exact ⟨[], l, rfl, by simp, fun p hp => (hq.score_le hp).trans (Nat.not_lt.1 hle)⟩

/-- There is a best occurrence if there is any. -/
theorem exists_best? (h : l ≠ []) : ∃ o, best? l = some o := by
  obtain ⟨first, l, rfl⟩ := List.exists_cons_of_ne_nil h
  rw [best?]
  split
  · exact ⟨_, rfl⟩
  · split <;> exact ⟨_, rfl⟩

end Occurrence

/-! ## (3) All occurrences -/

namespace Query

variable {query : Query} {haystack before after passed s : Text} {start : Nat} {strict : Bool}
  {o : Occurrence}

/-- The occurrence of the quote between two texts. -/
def occurrence (query : Query) (before after : Text) : Occurrence :=
  ⟨before.length, commonStart before.reverse query.before.reverse, commonStart after query.after⟩

/-- **All occurrences** of the quote are found. -/
theorem mem_occurrencesAfter (hne : query.quote ≠ []) (passed : Text) :
    o ∈ query.occurrencesAfter passed.length passed.reverse s ↔ ∃ before after,
      s = before ++ (query.quote ++ after) ∧ o = query.occurrence (passed ++ before) after := by
  induction s generalizing passed with
  | nil => simp [occurrencesAfter, hne]
  | cons c s ih =>
    have hrest : o ∈ query.occurrencesAfter (passed.length + 1) (c :: passed.reverse) s ↔
        ∃ before after, s = before ++ (query.quote ++ after) ∧
          o = query.occurrence (passed ++ c :: before) after := by
      simpa using ih (passed ++ [c])
    have hfirst : query.quote.isPrefixOf (c :: s) = true ↔
        ∃ after, c :: s = query.quote ++ after := by
      rw [List.isPrefixOf_iff_prefix]
      exact ⟨fun ⟨after, h⟩ => ⟨after, h.symm⟩, fun ⟨after, h⟩ => ⟨after, h.symm⟩⟩
    rw [occurrencesAfter]
    -- An occurrence starts at the first character, or it is one in the rest of the text.
    constructor
    · intro h
      by_cases hprefix : query.quote.isPrefixOf (c :: s) = true
      · rw [if_pos hprefix, List.mem_cons] at h
        rcases h with rfl | h
        · obtain ⟨after, hafter⟩ := hfirst.1 hprefix
          refine ⟨[], after, hafter, ?_⟩
          rw [occurrence, List.append_nil, hafter, List.drop_left]
        · obtain ⟨before, after, rfl, ho⟩ := hrest.1 h
          exact ⟨c :: before, after, rfl, ho⟩
      · rw [if_neg hprefix] at h
        obtain ⟨before, after, rfl, ho⟩ := hrest.1 h
        exact ⟨c :: before, after, rfl, ho⟩
    · rintro ⟨before, after, hs, ho⟩
      cases before with
      | nil =>
        rw [if_pos (hfirst.2 ⟨after, hs⟩), ho, occurrence, List.append_nil, hs, List.nil_append,
          List.drop_left]
        exact List.mem_cons_self
      | cons d before =>
        obtain ⟨rfl, hrest'⟩ := List.cons.inj hs
        have hmem := hrest.2 ⟨before, after, hrest', ho⟩
        split
        · exact List.mem_cons_of_mem _ hmem
        · exact hmem

/-- Occurrences are found in order. -/
theorem pairwise_occurrencesAfter (query : Query) (start : Nat) (passed s : Text) :
    (query.occurrencesAfter start passed s).Pairwise (·.start < ·.start) ∧
      ∀ o ∈ query.occurrencesAfter start passed s, start ≤ o.start := by
  induction s generalizing start passed with
  | nil => exact ⟨.nil, by simp [occurrencesAfter]⟩
  | cons c s ih =>
    obtain ⟨hpairs, hle⟩ := ih (start + 1) (c :: passed)
    rw [occurrencesAfter]
    split
    · exact ⟨List.pairwise_cons.2 ⟨hle, hpairs⟩, List.forall_mem_cons.2
        ⟨Nat.le_refl _, fun o ho => Nat.le_of_succ_le (hle o ho)⟩⟩
    · exact ⟨hpairs, fun o ho => Nat.le_of_succ_le (hle o ho)⟩

/-! ## (4) Occurrences with all of the context -/

/-- Whether all of the context surrounds an occurrence between two texts. -/
structure Surrounds (query : Query) (before after : Text) : Prop where
  before : query.before <:+ before
  after : query.after <+: after

/-- An occurrence is complete just if all of the context surrounds it. -/
theorem isComplete_occurrence :
    query.isComplete (query.occurrence before after) = true ↔ query.Surrounds before after := by
  have hbefore : query.before.length ≤ commonStart before.reverse query.before.reverse ↔
      query.before <:+ before := by
    rw [← List.length_reverse, length_le_commonStart_iff, List.reverse_prefix]
  rw [isComplete, Bool.and_eq_true, decide_eq_true_eq, decide_eq_true_eq, occurrence, hbefore,
    length_le_commonStart_iff]
  exact ⟨fun h => ⟨h.1, h.2⟩, fun h => ⟨h.before, h.after⟩⟩

/-- No score is greater than that of an occurrence with all of the context. -/
theorem score_occurrence_le (query : Query) (before after : Text) :
    (query.occurrence before after).score ≤ query.before.length + query.after.length := by
  have hbefore := commonStart_le before.reverse query.before.reverse
  rw [List.length_reverse] at hbefore
  exact Nat.add_le_add hbefore (commonStart_le after query.after)

/-- The score is the greatest possible one if and only if all of the context is there. -/
theorem surrounds_of_score_le
    (h : query.before.length + query.after.length ≤ (query.occurrence before after).score) :
    query.Surrounds before after := by
  have hbefore := commonStart_le before.reverse query.before.reverse
  have hafter := commonStart_le after query.after
  rw [List.length_reverse] at hbefore
  rw [← isComplete_occurrence, isComplete, Bool.and_eq_true, decide_eq_true_eq, decide_eq_true_eq]
  rw [Occurrence.score] at h
  simp only [occurrence] at h ⊢
  omega

/-- What is chosen is an occurrence. -/
theorem choose?_sound (hne : query.quote ≠ []) (h : query.choose? haystack strict = some o) :
    ∃ before after, haystack = before ++ (query.quote ++ after) ∧
      o = query.occurrence before after := by
  have hmem := List.mem_of_mem_filter (Occurrence.isFirstBest_of_best? h).mem
  exact (mem_occurrencesAfter hne []).1 hmem

/-- An occurrence is chosen if there is any. -/
theorem exists_choose? (hne : query.quote ≠ []) (before after : Text) :
    ∃ o, query.choose? (before ++ (query.quote ++ after)) false = some o := by
  have hmem : query.occurrence before after ∈
      query.occurrencesAfter 0 [] (before ++ (query.quote ++ after)) :=
    (mem_occurrencesAfter hne []).2 ⟨before, after, rfl, rfl⟩
  exact Occurrence.exists_best? (List.ne_nil_of_mem (List.mem_filter.2 ⟨hmem, rfl⟩))

/-- **The first occurrence with all of the context** is chosen, if there is any. -/
theorem choose?_surrounded (hne : query.quote ≠ [])
    (hhaystack : haystack = before ++ (query.quote ++ after))
    (hsurrounds : query.Surrounds before after) (strict : Bool) :
    ∃ before' after', haystack = before' ++ (query.quote ++ after') ∧
      query.Surrounds before' after' ∧
      query.choose? haystack strict = some (query.occurrence before' after') ∧
      ∀ before'' after'', haystack = before'' ++ (query.quote ++ after'') →
        query.Surrounds before'' after'' → before'.length ≤ before''.length := by
  -- Whether or not others count, those with all of the context do.
  have hcount : ∀ {b a : Text}, haystack = b ++ (query.quote ++ a) → query.Surrounds b a →
      query.occurrence b a ∈ (query.occurrencesAfter 0 [] haystack).filter
        fun o => !strict || query.isComplete o := by
    intro b a hsplit hs
    refine List.mem_filter.2 ⟨(mem_occurrencesAfter hne []).2 ⟨b, a, hsplit, rfl⟩, ?_⟩
    simp [isComplete_occurrence.2 hs]
  -- No other score is as great, unless all of the context is there as well.
  have hfull : ∀ {b a : Text}, query.Surrounds b a →
      query.before.length + query.after.length ≤ (query.occurrence b a).score := by
    intro b a hs
    have hcomplete := isComplete_occurrence.2 hs
    rw [isComplete, Bool.and_eq_true, decide_eq_true_eq, decide_eq_true_eq] at hcomplete
    exact Nat.add_le_add hcomplete.1 hcomplete.2
  obtain ⟨o, ho⟩ := Occurrence.exists_best? (List.ne_nil_of_mem (hcount hhaystack hsurrounds))
  have hbest := Occurrence.isFirstBest_of_best? ho
  obtain ⟨before', after', hsplit, rfl⟩ := choose?_sound hne ho
  refine ⟨before', after', hsplit, ?_, ho, fun before'' after'' hsplit'' hs => ?_⟩
  · exact surrounds_of_score_le ((hfull hsurrounds).trans
      (hbest.score_le (hcount hhaystack hsurrounds)))
  · refine hbest.start_le ?_ (hcount hsplit'' hs) ((score_occurrence_le _ _ _).trans (hfull hs))
    exact (pairwise_occurrencesAfter query 0 [] haystack).1.filter _

end Query

end ChapterLayout.Quote
