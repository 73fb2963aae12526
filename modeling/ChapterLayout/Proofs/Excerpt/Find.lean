import ChapterLayout.Proofs.Excerpt.Choose
import ChapterLayout.Proofs.Text.Trim

/-! # Where a quote is found

A quote is looked for in the collapsed text of a page, and its place is given in the lines of the
page. `Query.StandsAt` says in terms of the text itself where a quote stands with all of its
context:

* **`Query.StandsAt.stop_eq`** — a quote that starts at an offset ends at one;
* **`findRange?_eq`** — an occurrence that is chosen gives the range of the text it was collapsed
  from;
* **`findRange?_first`** — if a quote stands anywhere with all of its context, the first such place
  is found;
* **`findRange?_isSome`** — a quote is found if its collapsed form is part of the collapsed text. -/

namespace ChapterLayout

/-! ## (1) Ranges of offsets -/

/-- The range from one offset up to, and not including, another. -/
def TextRange.ofOffsets (lines : List Line) (start stop : Nat) : TextRange :=
  ⟨(Offset.ofOffset lines start).1, (Offset.ofOffset lines start).2,
    (Offset.ofOffset lines stop).1, (Offset.ofOffset lines stop).2⟩

namespace Offset

/-- An offset on the first line is its column. -/
theorem ofOffsetFrom_first (index : Int) {line : Line} (lines : List Line) {n : Nat}
    (h : n ≤ line.length) : ofOffsetFrom index (line :: lines) n = (index, (n : Int)) := by
  have hle : (n : Int) ≤ line.length := by omega
  have hmax : max (n : Int) 0 = n := by omega
  cases lines with
  | nil => simp only [ofOffsetFrom, if_pos hle, hmax]
  | cons next lines => simp only [ofOffsetFrom, if_pos hle, hmax]

/-- Offsets on later lines are counted from the end of the first one. -/
theorem ofOffsetFrom_next (index : Int) (line next : Line) (lines : List Line) (n : Nat) :
    ofOffsetFrom index (line :: next :: lines) (line.length + 1 + n : Nat) =
      ofOffsetFrom (index + 1) (next :: lines) n := by
  have hlt : ¬((line.length + 1 + n : Nat) : Int) ≤ line.length := by omega
  have hoffset : ((line.length + 1 + n : Nat) : Int) - (line.length + 1) = n := by omega
  rw [ofOffsetFrom, if_neg hlt, hoffset]
  simp

/-- Behind a character that is no line feed comes the next column. -/
theorem ofOffsetFrom_succ (index : Int) {lines : List Line} {s t : Text} {c : Char}
    (h : Text.joinLines lines = s ++ c :: t) (hc : c ≠ '\n') :
    ofOffsetFrom index lines (s.length + 1 : Nat) =
      ((ofOffsetFrom index lines s.length).1, (ofOffsetFrom index lines s.length).2 + 1) := by
  induction lines generalizing index s with
  | nil => simp [Text.joinLines] at h
  | cons line lines ih =>
    -- The character stands on the first line, or behind the line feed that ends it.
    have hfirst : ∀ u : Text, line = s ++ c :: u →
        ofOffsetFrom index (line :: lines) (s.length + 1 : Nat) =
          ((ofOffsetFrom index (line :: lines) s.length).1,
            (ofOffsetFrom index (line :: lines) s.length).2 + 1) := by
      rintro u rfl
      have hlength : s.length + 1 ≤ (s ++ c :: u).length := by simp
      rw [ofOffsetFrom_first index lines hlength,
        ofOffsetFrom_first index lines (Nat.le_of_succ_le hlength)]
      rfl
    cases lines with
    | nil => exact hfirst t (by simpa [Text.joinLines] using h)
    | cons next lines =>
      rw [Text.joinLines_cons_cons] at h
      rcases List.append_eq_append_iff.1 h with ⟨u, rfl, hu⟩ | ⟨u, hline, hu⟩
      · cases u with
        | nil => exact absurd (List.cons.inj hu).1.symm hc
        | cons d u =>
          obtain ⟨rfl, hrest⟩ := List.cons.inj hu
          have hlength : (line ++ '\n' :: u).length = line.length + 1 + u.length := by
            rw [List.length_append, List.length_cons]
            omega
          rw [hlength, Nat.add_assoc, ofOffsetFrom_next, ofOffsetFrom_next]
          exact ih (index + 1) hrest
      · cases u with
        | nil => exact absurd (List.cons.inj hu).1 hc
        | cons d u =>
          obtain ⟨rfl, -⟩ := List.cons.inj hu
          exact hfirst u hline

end Offset

namespace Quote

variable {s t : Text} {c : Char} {a b : Nat} {query : Query}

/-! ## (2) The collapsed text with its offsets -/

/-- What is searched is the collapsed text. -/
theorem map_locate (afterBlank : Bool) (index : Nat) (s : Text) :
    (locate afterBlank index s).map (·.1) =
      Text.collapse (if afterBlank then s.dropWhile Text.isBlank else s) := by
  induction s generalizing afterBlank index with
  | nil => cases afterBlank <;> simp [locate, Text.collapse]
  | cons c s ih =>
    by_cases hc : Text.isBlank c = true
    · cases afterBlank
      · simp [locate, Text.collapse, hc, ih]
      · simp [locate, hc, ih]
    · have hdrop : (c :: s).dropWhile Text.isBlank = c :: s := List.dropWhile_cons_of_neg hc
      rw [locate, if_neg hc, List.map_cons, ih, hdrop, ite_self, Text.collapse, if_neg hc]
      rfl

/-- A letter is found under its offset. -/
theorem locate_append_letter (hc : Text.isBlank c = false) (afterBlank : Bool) (index : Nat)
    (s t : Text) : locate afterBlank index (s ++ c :: t) = locate afterBlank index s ++
      (c, index + s.length) :: locate false (index + s.length + 1) t := by
  induction s generalizing afterBlank index with
  | nil => simp [locate, hc]
  | cons d s ih =>
    have hlength : index + (d :: s).length = index + 1 + s.length := by
      rw [List.length_cons]
      omega
    rw [List.cons_append, locate, locate, ih, ih, hlength]
    split
    · split <;> rfl
    · rfl

/-- The offset of a letter of the collapsed text. -/
theorem getElem?_locate (hc : Text.isBlank c = false) (s t : Text) :
    (locate false 0 (s ++ c :: t))[(Text.collapse s).length]? = some (c, s.length) := by
  have hlength : (Text.collapse s).length = (locate false 0 s).length := by
    rw [← List.length_map (fun x : Char × Nat => x.1), map_locate]
    rfl
  rw [locate_append_letter hc, hlength, List.getElem?_append_right (Nat.le_refl _), Nat.sub_self,
    Nat.zero_add]
  rfl

/-! ## (3) Places of a quote -/

/-- Whether a quote stands between two offsets of a text with all of its context around it. -/
structure Query.StandsAt (query : Query) (s : Text) (start stop : Nat) : Prop where
  start_le : start ≤ stop
  stop_le : stop ≤ s.length
  quote : Text.collapse ((s.take stop).drop start) = query.quote
  surrounds : query.Surrounds (Text.collapse (s.take start)) (Text.collapse (s.drop stop))

/-- Whether a quote stands between two offsets of a text and nowhere before, each time with all of
its context. -/
structure Query.StandsFirstAt (query : Query) (s : Text) (start stop : Nat) : Prop where
  stands : query.StandsAt s start stop
  first : ∀ a b, query.StandsAt s a b → start ≤ a

namespace Query

variable {m : Text}

/-- A quote stands in a text that is cut around it. -/
theorem standsAt_append (hm : Text.collapse m = query.quote)
    (h : query.Surrounds (Text.collapse s) (Text.collapse t)) :
    query.StandsAt (s ++ (m ++ t)) s.length (s ++ m).length := by
  have htake : (s ++ (m ++ t)).take (s ++ m).length = s ++ m := by
    rw [← List.append_assoc, List.take_left]
  have hdrop : (s ++ (m ++ t)).drop (s ++ m).length = t := by
    rw [← List.append_assoc, List.drop_left]
  refine ⟨by simp, by simp, ?_, ?_⟩
  · rw [htake, List.drop_left, hm]
  · rwa [List.take_left, hdrop]

/-- A text up to an offset is the text up to an earlier one and what stands between them. -/
theorem take_append_drop_take (s : Text) (h : a ≤ b) :
    s.take a ++ (s.take b).drop a = s.take b := by
  have htake : s.take a = (s.take b).take a := by
    rw [List.take_take, Nat.min_eq_left h]
  rw [htake, List.take_append_drop]

/-- A text is cut around a quote that stands in it. -/
theorem StandsAt.exists_append (h : query.StandsAt s a b) : ∃ u m v, s = u ++ (m ++ v) ∧
    u.length = a ∧ (u ++ m).length = b ∧ Text.collapse m = query.quote ∧
      query.Surrounds (Text.collapse u) (Text.collapse v) := by
  have hsplit := take_append_drop_take s h.start_le
  refine ⟨s.take a, (s.take b).drop a, s.drop b, ?_, ?_, ?_, h.quote, h.surrounds⟩
  · rw [← List.append_assoc, hsplit, List.take_append_drop]
  · rw [List.length_take, Nat.min_eq_left (h.start_le.trans h.stop_le)]
  · rw [hsplit, List.length_take, Nat.min_eq_left h.stop_le]

/-- The quote of a query has no blanks at its ends. -/
theorem isTrimmed_ofText (quote before after : Text) :
    Text.IsTrimmed Text.isBlank (ofText quote before after).quote :=
  Text.isTrimmed_trim _

section Trimmed

variable (htrim : Text.IsTrimmed Text.isBlank query.quote) (hne : query.quote ≠ [])
include htrim hne

/-- A text that collapses to the quote has no blanks at its ends either. -/
theorem isTrimmed_of_collapse (hm : Text.collapse m = query.quote) :
    Text.IsTrimmed Text.isBlank m ∧ m ≠ [] := by
  rw [Text.collapse_eq_collapseBy] at hm
  rw [← hm] at htrim hne
  exact ⟨(Text.isTrimmed_collapseBy_iff rfl).1 htrim, mt Text.collapseBy_eq_nil_iff.2 hne⟩

/-- The quote stands in the collapsed text where it stands in the text. -/
theorem collapse_append (hm : Text.collapse m = query.quote) (u v : Text) :
    Text.collapse (u ++ (m ++ v)) = Text.collapse u ++ (query.quote ++ Text.collapse v) := by
  obtain ⟨htrim', hne'⟩ := isTrimmed_of_collapse htrim hne hm
  rw [← hm]
  simp only [Text.collapse_eq_collapseBy]
  exact htrim'.collapseBy_append hne' u v

/-- Where the quote stands in the collapsed text, the text can be cut around it. -/
theorem exists_of_collapse_eq {before after : Text}
    (h : Text.collapse s = before ++ (query.quote ++ after)) : ∃ u m v, s = u ++ (m ++ v) ∧
      Text.collapse u = before ∧ Text.collapse m = query.quote ∧ Text.collapse v = after := by
  simp only [Text.collapse_eq_collapseBy] at h ⊢
  exact Text.exists_collapseBy_eq_trimmed rfl htrim hne h

/-- More of the text comes before what stands behind the start of the quote. -/
theorem StandsAt.collapse_take_lt (h : query.StandsAt s a b) {n : Nat} (ha : a < n)
    (hn : n ≤ s.length) :
    (Text.collapse (s.take a)).length < (Text.collapse (s.take n)).length := by
  obtain ⟨u, m, v, rfl, rfl, -, hm, -⟩ := h.exists_append
  obtain ⟨htrim', hne'⟩ := isTrimmed_of_collapse htrim hne hm
  obtain ⟨c, m, rfl, hc⟩ := htrim'.exists_cons hne'
  obtain ⟨k, rfl⟩ : ∃ k, n = u.length + (k + 1) := ⟨n - u.length - 1, by omega⟩
  rw [List.take_left, List.take_length_add_append, List.cons_append, List.take_succ_cons,
    Text.collapse_eq_collapseBy, Text.collapse_eq_collapseBy,
    Text.collapseBy_append (Or.inr (by simpa using hc)), Text.collapseBy_cons_letter hc,
    List.length_append, List.length_cons]
  omega

/-- **A quote that starts at an offset** ends at one. -/
theorem StandsAt.stop_eq {b' : Nat} (h : query.StandsAt s a b) (h' : query.StandsAt s a b') :
    b = b' := by
  wlog hle : b ≤ b' generalizing b b'
  · exact (this h' h (Nat.le_of_not_le hle)).symm
  obtain ⟨htrim', -⟩ := isTrimmed_of_collapse htrim hne h.quote
  -- What would be longer than the quote collapses to more than the quote.
  have hlonger : (s.take b').drop a = (s.take b).drop a ++ (s.take b').drop b := by
    rw [← take_append_drop_take s hle, List.drop_append_of_le_length]
    · congr 1
      rw [take_append_drop_take s hle]
    · rw [List.length_take, Nat.min_eq_left h.stop_le]
      exact h.start_le
  have hquote := h'.quote
  rw [hlonger, Text.collapse_eq_collapseBy, Text.collapseBy_append (Or.inl htrim'.last_letter),
    ← Text.collapse_eq_collapseBy, h.quote, List.append_right_eq_self, Text.collapseBy_eq_nil_iff,
    List.drop_eq_nil_iff, List.length_take, Nat.min_eq_left h'.stop_le] at hquote
  exact Nat.le_antisymm hle hquote

end Trimmed

end Query

/-! ## (4) The range that is found -/

/-- What is searched is the text of the lines, collapsed. -/
theorem findRange?_eq_bind {lines : List Line} {quote before after : Text} {strict : Bool}
    (hne : (Query.ofText quote before after).quote ≠ []) :
    findRange? lines quote before after strict = do
      let query := Query.ofText quote before after
      let located := locate false 0 (Text.joinLines lines)
      let o ← query.choose? (Text.collapse (Text.joinLines lines)) strict
      let first ← located[o.start]?
      let last ← located[o.start + query.quote.length - 1]?
      let start := Offset.ofOffset lines first.2
      let stop := Offset.ofOffset lines last.2
      return ⟨start.1, start.2, stop.1, stop.2 + 1⟩ := by
  have hempty : (Query.ofText quote before after).quote.isEmpty = false := by simpa using hne
  have hsearch : (locate false 0 (Text.joinLines lines)).map (·.1) =
      Text.collapse (Text.joinLines lines) := map_locate false 0 _
  simp only [findRange?, hempty, hsearch, Bool.false_eq_true, if_false]

/-- The offset of the first letter of a quote. -/
theorem getElem?_locate_first {u m v : Text} (htrim : Text.IsTrimmed Text.isBlank m) (hm : m ≠ []) :
    ∃ c, (locate false 0 (u ++ (m ++ v)))[(Text.collapse u).length]? = some (c, u.length) := by
  obtain ⟨c, m, rfl, hc⟩ := htrim.exists_cons hm
  exact ⟨c, getElem?_locate hc u (m ++ v)⟩

/-- The offset of the last letter of a quote, and the position behind it. -/
theorem getElem?_locate_last {lines : List Line} {u m v : Text}
    (htrim : Text.IsTrimmed Text.isBlank m) (hm : m ≠ [])
    (hlines : Text.joinLines lines = u ++ (m ++ v)) :
    ∃ d n, (locate false 0 (u ++ (m ++ v)))[(Text.collapse u).length +
        (Text.collapse m).length - 1]? = some (d, n) ∧
      Offset.ofOffset lines (u ++ m).length =
        ((Offset.ofOffset lines n).1, (Offset.ofOffset lines n).2 + 1) := by
  have hcollapse : Text.collapse (u ++ m) = Text.collapse u ++ Text.collapse m := by
    simpa [Text.collapse_eq_collapseBy] using htrim.collapseBy_append hm u []
  obtain ⟨m, d, rfl, hd⟩ := htrim.exists_concat hm
  have hsplit : u ++ (m ++ [d] ++ v) = (u ++ m) ++ d :: v := by simp
  have hindex : (Text.collapse u).length + (Text.collapse (m ++ [d])).length - 1 =
      (Text.collapse (u ++ m)).length := by
    rw [← List.length_append, ← hcollapse, ← List.append_assoc, Text.collapse_eq_collapseBy,
      Text.collapseBy_concat_letter hd, ← Text.collapse_eq_collapseBy, List.length_append,
      List.length_singleton, Nat.add_sub_cancel]
  have hlength : (u ++ (m ++ [d])).length = (u ++ m).length + 1 := by
    rw [← List.append_assoc, List.length_append, List.length_singleton]
  refine ⟨d, (u ++ m).length, ?_, ?_⟩
  · rw [hsplit, hindex]
    exact getElem?_locate hd (u ++ m) v
  · rw [hlength]
    refine Offset.ofOffsetFrom_succ 0 (hlines.trans hsplit) ?_
    rintro rfl
    exact absurd hd (by decide)

/-- **An occurrence that is chosen** gives the range of the text it was collapsed from. -/
theorem findRange?_eq {lines : List Line} {quote before after u m v : Text} {strict : Bool}
    {o : Occurrence} (hne : (Query.ofText quote before after).quote ≠ [])
    (hlines : Text.joinLines lines = u ++ (m ++ v))
    (hm : Text.collapse m = (Query.ofText quote before after).quote)
    (hchoose : (Query.ofText quote before after).choose?
      (Text.collapse (Text.joinLines lines)) strict = some o)
    (hstart : o.start = (Text.collapse u).length) :
    findRange? lines quote before after strict =
      some (TextRange.ofOffsets lines u.length (u ++ m).length) := by
  obtain ⟨htrim, hm'⟩ :=
    Query.isTrimmed_of_collapse (Query.isTrimmed_ofText quote before after) hne hm
  obtain ⟨c, hfirst⟩ := getElem?_locate_first (u := u) (v := v) htrim hm'
  obtain ⟨d, n, hlast, hstop⟩ := getElem?_locate_last htrim hm' hlines
  rw [← hlines, ← hstart] at hfirst
  rw [← hlines, ← hstart, hm] at hlast
  rw [findRange?_eq_bind hne, TextRange.ofOffsets, hstop]
  simp only [hchoose, Option.bind_eq_bind, Option.bind_some, hfirst, hlast, Option.pure_def]

/-- **The first place** where a quote stands with all of its context is found, if there is any. -/
theorem findRange?_first {lines : List Line} {quote before after : Text}
    (hne : (Query.ofText quote before after).quote ≠ [])
    (h : (Query.ofText quote before after).StandsAt (Text.joinLines lines) a b) (strict : Bool) :
    ∃ start stop, findRange? lines quote before after strict =
        some (TextRange.ofOffsets lines start stop) ∧
      (Query.ofText quote before after).StandsFirstAt (Text.joinLines lines) start stop := by
  have htrim := Query.isTrimmed_ofText quote before after
  obtain ⟨u₀, m₀, v₀, hs₀, -, -, hm₀, hsurrounds₀⟩ := h.exists_append
  have hcollapse₀ := Query.collapse_append htrim hne hm₀ u₀ v₀
  rw [← hs₀] at hcollapse₀
  obtain ⟨u', v', hsplit, hsurrounds, hchoose, hfirst⟩ :=
    Query.choose?_surrounded hne hcollapse₀ hsurrounds₀ strict
  obtain ⟨u, m, v, hlines, rfl, hm, rfl⟩ := Query.exists_of_collapse_eq htrim hne hsplit
  refine ⟨_, _, findRange?_eq hne hlines hm hchoose rfl, ?_, fun c d hother => ?_⟩
  · rw [hlines]
    exact Query.standsAt_append hm hsurrounds
  · -- What stands earlier in the text stands earlier in the collapsed text.
    by_contra hlt
    have hle : u.length ≤ (Text.joinLines lines).length := by
      rw [hlines, List.length_append]
      omega
    have hless := hother.collapse_take_lt htrim hne (Nat.lt_of_not_le hlt) hle
    obtain ⟨u₁, m₁, v₁, hs₁, rfl, -, hm₁, hsurrounds₁⟩ := hother.exists_append
    have hsplit₁ := Query.collapse_append htrim hne hm₁ u₁ v₁
    rw [← hs₁] at hsplit₁
    have hmin := hfirst _ _ hsplit₁ hsurrounds₁
    have htake : (Text.joinLines lines).take u.length = u := by rw [hlines, List.take_left]
    have htake₁ : (Text.joinLines lines).take u₁.length = u₁ := by rw [hs₁, List.take_left]
    rw [htake, htake₁] at hless
    omega

/-- **A quote is found** if its collapsed form is part of the collapsed text. -/
theorem findRange?_isSome {lines : List Line} {quote : Text} (before after : Text)
    (hne : (Query.ofText quote before after).quote ≠ [])
    (h : (Query.ofText quote before after).quote <:+: Text.collapse (Text.joinLines lines)) :
    (findRange? lines quote before after).isSome = true := by
  have htrim := Query.isTrimmed_ofText quote before after
  obtain ⟨u₀, v₀, hsplit₀⟩ := h
  rw [List.append_assoc] at hsplit₀
  obtain ⟨o, ho⟩ := Query.exists_choose? hne u₀ v₀
  rw [hsplit₀] at ho
  obtain ⟨u', v', hsplit, hstart⟩ := Query.choose?_sound hne ho
  obtain ⟨u, m, v, hlines, rfl, hm, rfl⟩ := Query.exists_of_collapse_eq htrim hne hsplit
  rw [findRange?_eq hne hlines hm ho (congrArg Occurrence.start hstart)]
  rfl

end Quote

end ChapterLayout
