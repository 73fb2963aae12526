import ChapterLayout.Excerpt.Capture
import ChapterLayout.Proofs.Excerpt.Find
import ChapterLayout.Proofs.Justify.Records

/-! # Excerpts are found again

An excerpt keeps the text of a selection without the blanks at its ends, and some of the text around
it. Both may be cut within a gap, and still the quote stands in the text with all of its context:

* **`Excerpt.exists_trimBounds`** — the selection without the blanks at its ends;
* **`Excerpt.standsAt_queryOf`** — the quote stands there with all of its context;
* **`Excerpt.findRange?_capture`** — so it is found, and if it stands nowhere before with the same
  context, it is found where it was selected. -/

namespace ChapterLayout.Excerpt

open Quote

variable {lines : List Line} {range : TextRange} {contextChars : Int} {s : Text} {start stop : Nat}

/-! ## (1) Selections -/

/-- The bounds of a selection lie in the text. -/
theorem bounds_le (lines : List Line) (range : TextRange) :
    (bounds lines range).1 ≤ (bounds lines range).2 ∧
      (bounds lines range).2 ≤ (Text.joinLines lines).length := by
  unfold bounds
  dsimp only
  omega

/-- **A selection without the blanks at its ends,** if it holds anything else. -/
theorem exists_trimBounds (hle : start ≤ stop) (hstop : stop ≤ s.length)
    (hvisible : ∃ c ∈ (s.take stop).drop start, Text.isBlank c = false) :
    ∃ u m v, s = u ++ (m ++ v) ∧ trimBounds s start stop = (u.length, (u ++ m).length) ∧
      Text.IsTrimmed Text.isBlank m ∧ m ≠ [] := by
  have hselected := Query.take_append_drop_take s hle
  obtain ⟨blanks, hparts, hblanks, htrim⟩ :=
    Text.exists_trim Text.isBlank ((s.take stop).drop start)
  have hlength : (s.take start).length = start := by
    rw [List.length_take, Nat.min_eq_left (hle.trans hstop)]
  refine ⟨s.take start ++ ((s.take stop).drop start).takeWhile Text.isBlank, _,
    blanks ++ s.drop stop, ?_, ?_, htrim, fun hnil => ?_⟩
  · rw [List.append_assoc, ← List.append_assoc _ blanks, ← List.append_assoc _ _ (s.drop stop),
      ← hparts, ← List.append_assoc, hselected, List.take_append_drop]
  · simp only [trimBounds, List.length_append, hlength]
  · -- What can be seen is no blank, so it stands in what is left.
    obtain ⟨c, hc, hletter⟩ := hvisible
    rw [hparts, hnil, List.nil_append] at hc
    have hblank : Text.isBlank c = true :=
      (List.mem_append.1 hc).elim List.mem_takeWhile_imp (hblanks c)
    exact absurd hblank (by simp [hletter])

/-! ## (2) The excerpt of a selection -/

/-- **The excerpt of a selection** holds what stands between its ends, and the end of the text
before it and the start of the text behind it. -/
theorem capture_eq {u m v : Text} (hcontext : 0 ≤ contextChars) (color : Text) (note : Option Text)
    (hs : Text.joinLines lines = u ++ (m ++ v))
    (htrim : trimBounds (Text.joinLines lines) (bounds lines range).1 (bounds lines range).2 =
      (u.length, (u ++ m).length)) :
    capture lines range contextChars color note =
      { text := m
        contextBefore := u.drop (u.length - contextChars.toNat)
        contextAfter := v.take contextChars.toNat
        color
        note } := by
  have htext : (u ++ (m ++ v)).take (u ++ m).length = u ++ m := by
    rw [← List.append_assoc, List.take_left]
  have hbefore : max ((u.length : Int) - contextChars) 0 =
      ((u.length - contextChars.toNat : Nat) : Int) := by omega
  have hafter : ((u ++ m).length : Int) + contextChars =
      ((u ++ m).length + contextChars.toNat : Nat) := by omega
  rw [capture, htrim]
  dsimp only
  rw [hbefore, hafter, Slice.cut_natCast, Slice.cut_natCast, hs, htext, List.drop_left,
    List.take_left, ← List.append_assoc, List.take_length_add_append, List.drop_left]

/-- The query for a text without blanks at its ends, with `n` characters of context on each side. -/
def queryOf (u m v : Text) (n : Nat) : Query :=
  Query.ofText m (u.drop (u.length - n)) (v.take n)

/-- A text without blanks at its ends is looked for as it is, collapsed. -/
theorem quote_queryOf {m : Text} (htrim : Text.IsTrimmed Text.isBlank m) (u v : Text) (n : Nat) :
    (queryOf u m v n).quote = Text.collapse m := by
  refine Text.trim_of_isTrimmed ?_
  rw [Text.collapse_eq_collapseBy]
  exact (Text.isTrimmed_collapseBy_iff rfl).2 htrim

/-- The quote of a text that is not empty is not empty. -/
theorem quote_queryOf_ne_nil {m : Text} (htrim : Text.IsTrimmed Text.isBlank m) (hm : m ≠ [])
    (u v : Text) (n : Nat) : (queryOf u m v n).quote ≠ [] := by
  rw [quote_queryOf htrim, Text.collapse_eq_collapseBy]
  exact mt Text.collapseBy_eq_nil_iff.1 hm

/-- **The quote of an excerpt** stands where it was selected, with all of its context. -/
theorem standsAt_queryOf {m : Text} (htrim : Text.IsTrimmed Text.isBlank m) (u v : Text) (n : Nat) :
    (queryOf u m v n).StandsAt (u ++ (m ++ v)) u.length (u ++ m).length := by
  refine Query.standsAt_append (quote_queryOf htrim u v n).symm ⟨?_, ?_⟩
  · show Text.collapse (u.drop (u.length - n)) <:+ Text.collapse u
    have hsuffix := Text.collapseBy_isSuffix (p := Text.isBlank) (u.take (u.length - n))
      (u.drop (u.length - n))
    rwa [List.take_append_drop, ← Text.collapse_eq_collapseBy, ← Text.collapse_eq_collapseBy]
      at hsuffix
  · show Text.collapse (v.take n) <+: Text.collapse v
    have hprefix := Text.collapseBy_isPrefix (p := Text.isBlank) (v.take n) (v.drop n)
    rwa [List.take_append_drop, ← Text.collapse_eq_collapseBy, ← Text.collapse_eq_collapseBy]
      at hprefix

/-! ## (3) Back to the selection -/

/-- What a search for an excerpt gives: the first place where the quote stands with all of its
context. It does not start behind the given offset, and it is the given place if the quote stands
nowhere before it with the same context, as it never does if all of the text is kept as context. -/
structure FoundAgain (query : Query) (s : Text) (contextChars : Int) (selected : Nat × Nat)
    (start stop : Nat) : Prop where
  first : query.StandsFirstAt s start stop
  start_le : start ≤ selected.1
  eq_of_first : (∀ a b, query.StandsAt s a b → selected.1 ≤ a) → (start, stop) = selected
  eq_of_length_le : s.length ≤ contextChars → (start, stop) = selected

/-- The first place of an excerpt's quote. -/
theorem foundAgain {u m v : Text} (hcontext : 0 ≤ contextChars)
    (htrim : Text.IsTrimmed Text.isBlank m) (hm : m ≠ [])
    (hfirst : (queryOf u m v contextChars.toNat).StandsFirstAt (u ++ (m ++ v)) start stop) :
    FoundAgain (queryOf u m v contextChars.toNat) (u ++ (m ++ v)) contextChars
      (u.length, (u ++ m).length) start stop := by
  have hstands := standsAt_queryOf htrim u v contextChars.toNat
  have hquote := Query.isTrimmed_ofText m (u.drop (u.length - contextChars.toNat))
    (v.take contextChars.toNat)
  have hne := quote_queryOf_ne_nil htrim hm u v contextChars.toNat
  have hle : start ≤ u.length := hfirst.first _ _ hstands
  have hexact : u.length ≤ start → (start, stop) = (u.length, (u ++ m).length) := by
    intro hge
    obtain rfl : start = u.length := Nat.le_antisymm hle hge
    rw [hfirst.stands.stop_eq hquote hne hstands]
  refine ⟨hfirst, hle, fun hnone => hexact (hnone _ _ hfirst.stands), fun hall => ?_⟩
  -- A place before would have all of the text before the selection before it.
  refine hexact (Nat.le_of_not_lt fun hlt => ?_)
  have hless := hfirst.stands.collapse_take_lt hquote hne hlt (by simp)
  have hwhole : u.drop (u.length - contextChars.toNat) = u := by
    have : u.length - contextChars.toNat = 0 := by
      rw [List.length_append] at hall
      omega
    rw [this, List.drop_zero]
  have hbefore := hfirst.stands.surrounds.before.length_le
  rw [List.take_left] at hless
  change (Text.collapse (u.drop (u.length - contextChars.toNat))).length ≤ _ at hbefore
  rw [hwhole] at hbefore
  omega

/-- **Excerpts are found again** in the lines that they were taken from: as `FoundAgain` says, where
they were selected or at an earlier place with the same context. -/
theorem findRange?_capture (color : Text) (note : Option Text) (strict : Bool)
    (hcontext : 0 ≤ contextChars)
    (hvisible : ∃ c ∈ ((Text.joinLines lines).take (bounds lines range).2).drop
      (bounds lines range).1, Text.isBlank c = false) :
    let s := Text.joinLines lines
    let excerpt := capture lines range contextChars color note
    let query := Query.ofText excerpt.text excerpt.contextBefore excerpt.contextAfter
    ∃ start stop, findRange? lines excerpt.text excerpt.contextBefore excerpt.contextAfter strict =
        some (TextRange.ofOffsets lines start stop) ∧
      FoundAgain query s contextChars (trimBounds s (bounds lines range).1 (bounds lines range).2)
        start stop := by
  dsimp only
  obtain ⟨hle, hstop⟩ := bounds_le lines range
  obtain ⟨u, m, v, hs, hselected, htrim, hm⟩ := exists_trimBounds hle hstop hvisible
  have hstands := standsAt_queryOf htrim u v contextChars.toNat
  have hne := quote_queryOf_ne_nil htrim hm u v contextChars.toNat
  rw [capture_eq hcontext color note hs hselected, hselected]
  rw [← hs] at hstands
  obtain ⟨start, stop, hfind, hfirst⟩ := findRange?_first hne hstands strict
  refine ⟨start, stop, hfind, ?_⟩
  rw [hs] at hfirst ⊢
  exact foundAgain hcontext htrim hm hfirst

/-- A word with the same three characters around it before: the earlier one is found. -/
theorem findRange?_capture_repeated :
    let lines := ["xx ab yy ab yy".toList, "ab yy".toList]
    let range : TextRange := ⟨1, 0, 1, 3⟩
    let excerpt := capture lines range 3
    let query := Query.ofText excerpt.text excerpt.contextBefore excerpt.contextAfter
    findRange? lines excerpt.text excerpt.contextBefore excerpt.contextAfter true =
        some ⟨0, 9, 0, 11⟩ ∧
      ∃ start stop, some ⟨0, 9, 0, 11⟩ = some (TextRange.ofOffsets lines start stop) ∧
        FoundAgain query (Text.joinLines lines) 3 (15, 17) start stop := by
  intro lines range excerpt query
  have hfind : findRange? lines excerpt.text excerpt.contextBefore excerpt.contextAfter true =
      some ⟨0, 9, 0, 11⟩ := by decide +kernel
  refine ⟨hfind, ?_⟩
  rw [← hfind]
  have hvisible : ∃ c ∈ ((Text.joinLines lines).take (bounds lines range).2).drop
      (bounds lines range).1, Text.isBlank c = false := ⟨'a', by decide +kernel, rfl⟩
  exact findRange?_capture "yellow".toList none true (by decide) hvisible

end ChapterLayout.Excerpt
