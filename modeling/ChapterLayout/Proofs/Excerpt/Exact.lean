import Mathlib.Order.Bounds.Basic
import ChapterLayout.Proofs.Excerpt.Offsets
import ChapterLayout.Proofs.Style.Clamp

/-! # A search finds exactly the best occurrence

An occurrence of a quote is admissible if the search is not strict, or if all of the context
surrounds it. Its worth is the length of the context that it shares with the query: the longest text
with which both what comes before it and the context before end, and the longest one with which both
what comes behind it and the context behind start.

* **`Query.choose?_eq_none_iff`** — an occurrence is chosen if there is an admissible one;
* **`Query.isEarliestBest_of_choose?`** — and it is the earliest of those that are worth most;
* **`findRange?_exact`** — so a search fails only if no occurrence is admissible, and otherwise
  gives columns of lines that exist, from the first to the last character of the best one. -/

namespace ChapterLayout.Quote

/-! ## (1) Common starts and ends -/

/-- Whether `n` is the length of the longest text with which both texts start. -/
def IsCommonStart (s t : Text) (n : Nat) : Prop :=
  IsGreatest {k | ∃ u, u.length = k ∧ u <+: s ∧ u <+: t} n

/-- Whether `n` is the length of the longest text with which both texts end. -/
def IsCommonEnd (s t : Text) (n : Nat) : Prop :=
  IsGreatest {k | ∃ u, u.length = k ∧ u <:+ s ∧ u <:+ t} n

/-- Texts that start with different characters, or of which one is empty, have nothing in common. -/
theorem isCommonStart_zero {s t : Text} (h : ∀ c u, c :: u <+: s → ¬c :: u <+: t) :
    IsCommonStart s t 0 := by
  refine ⟨⟨[], rfl, List.nil_prefix, List.nil_prefix⟩, ?_⟩
  rintro k ⟨u, rfl, hs, ht⟩
  cases u with
  | nil => exact Nat.le_refl 0
  | cons c u => exact absurd ht (h c u hs)

/-- A character before both texts is one more in common. -/
theorem IsCommonStart.cons {s t : Text} {n : Nat} (h : IsCommonStart s t n) (c : Char) :
    IsCommonStart (c :: s) (c :: t) (n + 1) := by
  obtain ⟨⟨u, rfl, hs, ht⟩, hgreatest⟩ := h
  refine ⟨⟨c :: u, rfl, List.cons_prefix_cons.2 ⟨rfl, hs⟩, List.cons_prefix_cons.2 ⟨rfl, ht⟩⟩, ?_⟩
  rintro k ⟨v, rfl, hs', ht'⟩
  cases v with
  | nil => exact Nat.zero_le _
  | cons d v =>
    rw [List.cons_prefix_cons] at hs' ht'
    exact Nat.succ_le_succ (hgreatest ⟨v, rfl, hs'.2, ht'.2⟩)

/-- What is counted as the common start of two texts is theirs. -/
theorem isCommonStart_commonStart (s t : Text) : IsCommonStart s t (commonStart s t) := by
  induction s generalizing t with
  | nil => exact isCommonStart_zero fun c u hs => absurd (List.prefix_nil.1 hs) (by simp)
  | cons c s ih =>
    cases t with
    | nil => exact isCommonStart_zero fun d u _ ht => absurd (List.prefix_nil.1 ht) (by simp)
    | cons d t =>
      rw [commonStart]
      split
      · rename_i hcd
        rw [beq_iff_eq.1 hcd]
        exact (ih t).cons d
      · rename_i hcd
        refine isCommonStart_zero fun e u hs ht => hcd ?_
        rw [List.cons_prefix_cons] at hs ht
        rw [beq_iff_eq, ← hs.1, ht.1]

/-- The common start of two texts read backwards is their common end. -/
theorem isCommonEnd_commonStart (s t : Text) :
    IsCommonEnd s t (commonStart s.reverse t.reverse) := by
  obtain ⟨⟨u, hlength, hs, ht⟩, hgreatest⟩ := isCommonStart_commonStart s.reverse t.reverse
  refine ⟨⟨u.reverse, by rw [List.length_reverse, hlength], ?_, ?_⟩, ?_⟩
  · rw [← List.reverse_reverse s, List.reverse_suffix]
    exact hs
  · rw [← List.reverse_reverse t, List.reverse_suffix]
    exact ht
  · rintro k ⟨v, rfl, hs', ht'⟩
    exact hgreatest ⟨v.reverse, List.length_reverse, List.reverse_prefix.2 hs',
      List.reverse_prefix.2 ht'⟩

/-! ## (2) The worth of an occurrence -/

/-- There is no best occurrence if there is none at all. -/
theorem Occurrence.best?_eq_none_iff {l : List Occurrence} : best? l = none ↔ l = [] := by
  constructor
  · intro h
    by_contra hne
    obtain ⟨o, ho⟩ := exists_best? hne
    rw [h] at ho
    cases ho
  · rintro rfl
    rfl

namespace Query

variable {query : Query} {haystack before after : Text} {strict : Bool} {n : Nat} {o : Occurrence}

/-- Whether an occurrence of the quote between two texts shares `n` characters of context with the
query. -/
def Shares (query : Query) (before after : Text) (n : Nat) : Prop :=
  ∃ i j, IsCommonEnd before query.before i ∧ IsCommonStart after query.after j ∧ n = i + j

/-- Every occurrence shares as many characters as its score says. -/
theorem shares_iff : query.Shares before after n ↔ n = (query.occurrence before after).score := by
  constructor
  · rintro ⟨i, j, hi, hj, rfl⟩
    rw [hi.unique (isCommonEnd_commonStart before query.before),
      hj.unique (isCommonStart_commonStart after query.after)]
    rfl
  · rintro rfl
    exact ⟨_, _, isCommonEnd_commonStart before query.before,
      isCommonStart_commonStart after query.after, rfl⟩

/-- Whether the quote stands in a text between two others, with all of the context around it if the
search is strict. -/
structure Admits (query : Query) (strict : Bool) (haystack before after : Text) : Prop where
  split : haystack = before ++ (query.quote ++ after)
  surrounds : strict = true → query.Surrounds before after

/-- Whether an admissible occurrence shares the most context with the query, and is the earliest of
those that do. -/
structure IsEarliestBest (query : Query) (strict : Bool) (haystack before after : Text) : Prop where
  admits : query.Admits strict haystack before after
  best : ∀ before' after' m n, query.Admits strict haystack before' after' →
    query.Shares before' after' m → query.Shares before after n → m ≤ n
  earliest : ∀ before' after' n, query.Admits strict haystack before' after' →
    query.Shares before' after' n → query.Shares before after n → before.length ≤ before'.length

/-- The occurrences that count are the admissible ones. -/
theorem mem_counted (hne : query.quote ≠ []) :
    o ∈ ((query.occurrencesAfter 0 [] haystack).filter fun o => !strict || query.isComplete o) ↔
      ∃ before after, query.Admits strict haystack before after ∧
        o = query.occurrence before after := by
  have hmem := mem_occurrencesAfter (s := haystack) (o := o) hne []
  rw [List.reverse_nil, List.length_nil] at hmem
  rw [List.mem_filter, hmem]
  constructor
  · rintro ⟨⟨before, after, hsplit, rfl⟩, hcounts⟩
    rw [List.nil_append] at hcounts ⊢
    refine ⟨before, after, ⟨hsplit, fun hstrict => ?_⟩, rfl⟩
    rw [hstrict, Bool.not_true, Bool.false_or] at hcounts
    exact isComplete_occurrence.1 hcounts
  · rintro ⟨before, after, hadmits, rfl⟩
    refine ⟨⟨before, after, hadmits.split, rfl⟩, ?_⟩
    cases strict with
    | false => rfl
    | true => exact isComplete_occurrence.2 (hadmits.surrounds rfl)

/-- **An occurrence is chosen** if and only if there is an admissible one. -/
theorem choose?_eq_none_iff (hne : query.quote ≠ []) :
    query.choose? haystack strict = none ↔
      ∀ before after, ¬query.Admits strict haystack before after := by
  rw [choose?, Occurrence.best?_eq_none_iff, List.eq_nil_iff_forall_not_mem]
  constructor
  · intro h before after hadmits
    exact h _ ((mem_counted hne).2 ⟨before, after, hadmits, rfl⟩)
  · intro h o ho
    obtain ⟨before, after, hadmits, -⟩ := (mem_counted hne).1 ho
    exact h before after hadmits

/-- **The chosen occurrence** is the earliest of those that share the most context. -/
theorem isEarliestBest_of_choose? (hne : query.quote ≠ [])
    (h : query.choose? haystack strict = some o) :
    ∃ before after, o = query.occurrence before after ∧
      query.IsEarliestBest strict haystack before after := by
  have hbest := Occurrence.isFirstBest_of_best? h
  obtain ⟨before, after, hadmits, rfl⟩ := (mem_counted hne).1 hbest.mem
  refine ⟨before, after, rfl, hadmits, ?_, ?_⟩
  · intro before' after' m n hadmits' hm hn
    rw [shares_iff.1 hm, shares_iff.1 hn]
    exact hbest.score_le ((mem_counted hne).2 ⟨before', after', hadmits', rfl⟩)
  · intro before' after' n hadmits' hn' hn
    have hsorted := (pairwise_occurrencesAfter query 0 [] haystack).1.filter
      fun o => !strict || query.isComplete o
    exact hbest.start_le hsorted ((mem_counted hne).2 ⟨before', after', hadmits', rfl⟩)
      (Nat.le_of_eq ((shares_iff.1 hn).symm.trans (shares_iff.1 hn')))

end Query

/-! ## (3) The range of the best occurrence -/

variable {lines : List Line} {quote before after : Text} {strict : Bool} {range : TextRange}

/-- Without a quote nothing is found. -/
theorem findRange?_of_quote_nil (h : (Query.ofText quote before after).quote = []) :
    findRange? lines quote before after strict = none := by
  simp [findRange?, h]

/-- **A search fails** if and only if there is no quote or no admissible occurrence of it. -/
theorem findRange?_eq_none_iff : findRange? lines quote before after strict = none ↔
    (Query.ofText quote before after).quote = [] ∨ ∀ u v, ¬(Query.ofText quote before after).Admits
      strict (Text.collapse (Text.joinLines lines)) u v := by
  by_cases hne : (Query.ofText quote before after).quote = []
  · exact iff_of_true (findRange?_of_quote_nil hne) (Or.inl hne)
  · rw [or_iff_right hne, ← Query.choose?_eq_none_iff hne]
    have htrim := Query.isTrimmed_ofText quote before after
    cases hchoose : (Query.ofText quote before after).choose?
        (Text.collapse (Text.joinLines lines)) strict with
    | none => simp [findRange?_eq_bind hne, hchoose]
    | some o =>
      obtain ⟨u', v', hsplit, hstart⟩ := Query.choose?_sound hne hchoose
      obtain ⟨u, m, v, hlines, rfl, hm, rfl⟩ := Query.exists_of_collapse_eq htrim hne hsplit
      simp [findRange?_eq hne hlines hm hchoose (congrArg Occurrence.start hstart)]

/-- What a search gives: columns of lines that exist, from the first to the last character of a part
of the text that starts and ends in a letter and collapses to the quote. That part is the earliest
of those that share the most context. -/
structure IsExact (query : Query) (lines : List Line) (strict : Bool) (range : TextRange) :
    Prop where
  startLine_le : 0 ≤ range.startLine ∧ range.startLine ≤ range.endLine
  start : ∃ line, lineAt? lines range.startLine = some line ∧
    0 ≤ range.startCol ∧ range.startCol < line.length
  stop : ∃ line, lineAt? lines range.endLine = some line ∧
    0 < range.endCol ∧ range.endCol ≤ line.length
  part : ∃ u m v, Text.joinLines lines = u ++ (m ++ v) ∧
    Offset.toOffset lines range.startLine range.startCol = u.length ∧
    Offset.toOffset lines range.endLine range.endCol = (u ++ m).length ∧
    m ≠ [] ∧ Text.IsTrimmed Text.isBlank m ∧ Text.collapse m = query.quote ∧
    query.IsEarliestBest strict (Text.collapse (Text.joinLines lines)) (Text.collapse u)
      (Text.collapse v)

/-- The range of a part of the text that starts and ends in a letter. -/
theorem isExact_ofOffsets {query : Query} {u m v : Text}
    (hlines : Text.joinLines lines = u ++ (m ++ v)) (htrim : Text.IsTrimmed Text.isBlank m)
    (hne : m ≠ []) (hm : Text.collapse m = query.quote)
    (hbest : query.IsEarliestBest strict (Text.collapse (Text.joinLines lines)) (Text.collapse u)
      (Text.collapse v)) :
    IsExact query lines strict (TextRange.ofOffsets lines u.length (u ++ m).length) := by
  have hletter : ∀ c, Text.isBlank c = false → c ≠ '\n' := by
    rintro c hc rfl
    exact absurd hc (by decide)
  -- The first character.
  obtain ⟨c, m₁, hm₁, hc⟩ := htrim.exists_cons hne
  obtain ⟨i, first, a, hfirst, ha, hstart⟩ :=
    Offset.exists_lineStart_lt (by rw [hlines, hm₁, List.cons_append]) (hletter c hc)
  -- The last character, behind which the range ends.
  obtain ⟨m₂, d, hm₂, hd⟩ := htrim.exists_concat hne
  have hsplit : Text.joinLines lines = (u ++ m₂) ++ d :: v := by
    rw [hlines, hm₂]
    simp
  obtain ⟨j, last, b, hlast, hb, hlength⟩ := Offset.exists_lineStart_lt hsplit (hletter d hd)
  have hstop : Offset.lineStart lines j + (b + 1) = (u ++ m).length := by
    rw [hm₂, ← List.append_assoc, List.length_append, List.length_singleton, ← hlength]
    rfl
  have hij : i ≤ j := by
    by_contra hlt
    have hafter := Offset.lineStart_add_length_lt hlast (Nat.lt_of_not_le hlt)
      (List.getElem?_eq_some_iff.1 hfirst).1
    rw [List.length_append] at hlength
    omega
  have hrange : TextRange.ofOffsets lines u.length (u ++ m).length =
      ⟨i, a, j, (b + 1 : Nat)⟩ := by
    rw [TextRange.ofOffsets, ← hstart, ← hstop,
      Offset.ofOffset_lineStart hfirst (Nat.le_of_lt ha), Offset.ofOffset_lineStart hlast hb]
  rw [hrange]
  refine ⟨⟨by simp, by simpa using hij⟩, ⟨first, ?_, by simp, by simpa using ha⟩,
    ⟨last, ?_, by simp, Int.ofNat_le.2 hb⟩, u, m, v, hlines, ?_, ?_, hne, htrim, hm, hbest⟩
  · exact (lineAt?_natCast lines i).trans hfirst
  · exact (lineAt?_natCast lines j).trans hlast
  · rw [Offset.toOffset_natCast, hstart]
  · rw [Offset.toOffset_natCast, hstop]

/-- **A search is exact.** It fails if and only if the collapsed quote is empty, or does not occur
in the collapsed text of the lines, or the search is strict and no occurrence has all of the context
around it. Otherwise it gives the range of the earliest of the admissible occurrences that share the
most context. -/
theorem findRange?_exact (lines : List Line) (quote before after : Text) (strict : Bool) :
    let query := Query.ofText quote before after
    let haystack := Text.collapse (Text.joinLines lines)
    (findRange? lines quote before after strict = none ↔
      query.quote = [] ∨ ¬query.quote <:+: haystack ∨
        (strict = true ∧ ∀ u v, haystack = u ++ (query.quote ++ v) → ¬query.Surrounds u v)) ∧
    ∀ range, findRange? lines quote before after strict = some range →
      IsExact query lines strict range := by
  intro query haystack
  refine ⟨?_, fun range hfind => ?_⟩
  · rw [findRange?_eq_none_iff]
    refine or_congr Iff.rfl ?_
    constructor
    -- Nothing is found: either the quote does not occur, or the search is strict and no occurrence
    -- has all of its context.
    · intro hnone
      by_cases hoccurs : query.quote <:+: haystack
      · obtain ⟨u, v, hsplit⟩ := hoccurs
        rw [List.append_assoc] at hsplit
        have hstrict : strict = true := by
          by_contra hloose
          exact hnone u v ⟨hsplit.symm, fun h => absurd h hloose⟩
        exact Or.inr ⟨hstrict, fun u v hsplit hsurrounds =>
          hnone u v ⟨hsplit, fun _ => hsurrounds⟩⟩
      · exact Or.inl hoccurs
    · rintro (habsent | ⟨hstrict, hnone⟩) u v hadmits
      · exact habsent ⟨u, v, by rw [List.append_assoc]; exact hadmits.split.symm⟩
      · exact hnone u v hadmits.split (hadmits.surrounds hstrict)
  -- Something is found, so that there is a quote, and it is the best of its occurrences.
  · have hne : query.quote ≠ [] := by
      intro hnil
      rw [findRange?_of_quote_nil hnil] at hfind
      cases hfind
    have htrim := Query.isTrimmed_ofText quote before after
    cases hchoose : query.choose? haystack strict with
    | none =>
      rw [findRange?_eq_bind hne] at hfind
      dsimp only at hfind
      rw [hchoose] at hfind
      cases hfind
    | some o =>
      obtain ⟨u', v', rfl, hbest⟩ := Query.isEarliestBest_of_choose? hne hchoose
      -- The occurrence in the collapsed text is one in the lines, between its first and its last
      -- letter.
      obtain ⟨u, m, v, hlines, rfl, hm, rfl⟩ :=
        Query.exists_of_collapse_eq htrim hne hbest.admits.split
      rw [findRange?_eq hne hlines hm hchoose rfl] at hfind
      obtain rfl := Option.some.inj hfind
      obtain ⟨htrim', hne'⟩ := Query.isTrimmed_of_collapse htrim hne hm
      exact isExact_ofOffsets hlines htrim' hne' hm hbest

/-- Four occurrences, two of which overlap: the second one shares a letter before it and a space and
a letter behind it. A strict search for more context fails. -/
theorem findRange?_exact_overlapping :
    let lines := ["baaa".toList, "aa  aab".toList]
    findRange? lines "aa".toList "a".toList " a".toList false = some ⟨0, 2, 0, 4⟩ ∧
      IsExact (Query.ofText "aa".toList "a".toList " a".toList) lines false ⟨0, 2, 0, 4⟩ ∧
      findRange? lines "aa".toList "c".toList " a".toList true = none := by
  intro lines
  have hfind : findRange? lines "aa".toList "a".toList " a".toList false = some ⟨0, 2, 0, 4⟩ := by
    decide +kernel
  exact ⟨hfind, (findRange?_exact lines _ _ _ false).2 _ hfind, by decide +kernel⟩

end Quote

end ChapterLayout
