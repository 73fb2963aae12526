import ChapterLayout.Proofs.Markup.Local

/-! # Cutting a chapter at a tag

A chapter is cut from left to right, so a tag divides it: the segments before the tag are read from
the text before it, and what follows the tag is read from the text behind it.

* **`Segment.segmentsAfter_induction`** — reading a chapter, by the kind of what comes first;
* **`Segment.source_segmentsAfter`** — nothing is lost when a chapter is cut;
* **`Segment.cut_of_segmentsAfter`** — where a tag stands, the chapter is cut into what is read up
  to the tag, `Segment.Cut`, and what follows it, `Segment.follow`;
* **`Segment.Cut.segmentsAfter`**, **`Segment.Cut.replace`** — such a cut gives the segments of the
  chapter, and it is the same with another text behind the tag. -/

namespace ChapterLayout

namespace Segment

variable {s inside rest content name : Text} {segment : Segment}

/-! ## (1) What follows a segment -/

/-- The raw content that follows a segment, and the text behind it. Only a tag that opens a raw
element is followed by any. -/
def splitContent (segment : Segment) (s : Text) : Text × Text :=
  match segment.rawName? with
  | some name => splitRaw name s
  | none => ([], s)

/-- The segments that follow a segment: its raw content, and those of the text behind it. -/
def follow (segment : Segment) (s : Text) : List Segment :=
  unlessEmpty .raw (segment.splitContent s).1 ++ segmentsAfter [] (segment.splitContent s).2

/-- Only the names of raw elements are followed by raw content. -/
theorem mem_rawNames_of_rawName? (h : segment.rawName? = some name) :
    name ∈ Token.rawNames := by
  cases segment with
  | tag inside =>
    rw [rawName?, Token.rawName?.eq_def] at h
    split at h
    · split at h
      · rename_i hraw
        rw [← Option.some.inj h]
        simpa using hraw
      · cases h
    · cases h
  | _ => cases h

/-- Raw content and the text behind it make up the text. -/
theorem splitContent_append (segment : Segment) (s : Text) :
    (segment.splitContent s).1 ++ (segment.splitContent s).2 = s := by
  unfold splitContent
  split
  · exact (splitRaw_spec _ s).1
  · rfl

/-- The content ends at the same place whatever stands behind the first bracket after it. -/
theorem splitContent_replace (hs : '>' ∈ s)
    (h : segment.splitContent (content ++ (s ++ rest)) = (content, s ++ rest)) (t : Text) :
    segment.splitContent (content ++ (s ++ t)) = (content, s ++ t) := by
  unfold splitContent at h ⊢
  split at h
  · rename_i name hname
    exact splitRaw_append (mem_rawNames_of_rawName? hname) hs h t
  · rw [← (Prod.mk.inj h).1]
    rfl

/-! ## (2) Segments from left to right -/

/-- A construct ends the character data before it and is followed by its content. -/
theorem segmentsAfter_closed (h : construct s = .closed segment rest) (before : Text) :
    segmentsAfter before ('<' :: s) =
      unlessEmpty .text before.reverse ++ segment :: segment.follow rest := by
  rw [segmentsAfter, if_pos rfl]
  split
  · rename_i segment' rest' hclosed
    obtain ⟨rfl, rfl⟩ := Construct.closed.inj (h.symm.trans hclosed)
    unfold follow splitContent
    cases segment.rawName? <;> rfl
  · rename_i hunclosed
    cases h.symm.trans hunclosed
  · rename_i hbare
    cases h.symm.trans hbare

/-- Everything from a construct that is never closed is character data. -/
theorem segmentsAfter_unclosed (h : construct s = .unclosed) (before : Text) :
    segmentsAfter before ('<' :: s) = [.text (before.reverse ++ '<' :: s)] := by
  rw [segmentsAfter, if_pos rfl]
  split
  · rename_i hclosed
    cases h.symm.trans hclosed
  · rfl
  · rename_i hbare
    cases h.symm.trans hbare

/-- A bracket that starts nothing is character data. -/
theorem segmentsAfter_bare (h : construct s = .bare) (before : Text) :
    segmentsAfter before ('<' :: s) = segmentsAfter ('<' :: before) s := by
  rw [segmentsAfter, if_pos rfl]
  split
  · rename_i hclosed
    cases h.symm.trans hclosed
  · rename_i hunclosed
    cases h.symm.trans hunclosed
  · rfl

/-- All else is character data. -/
theorem segmentsAfter_data {c : Char} (h : c ≠ '<') (before s : Text) :
    segmentsAfter before (c :: s) = segmentsAfter (c :: before) s := by
  rw [segmentsAfter, if_neg h]

/-- **Reading a chapter** from left to right: by the kind of what comes first. -/
theorem segmentsAfter_induction {P : Text → Text → Prop}
    (nil : ∀ before, P before [])
    (data : ∀ before c s, c ≠ '<' → P (c :: before) s → P before (c :: s))
    (bare : ∀ before s, construct s = .bare → P ('<' :: before) s → P before ('<' :: s))
    (unclosed : ∀ before s, construct s = .unclosed → P before ('<' :: s))
    (closed : ∀ before s segment rest, construct s = .closed segment rest →
      P [] (segment.splitContent rest).2 → P before ('<' :: s))
    (before s : Text) : P before s := by
  -- The induction is on the length, for a closed construct leaves a rest and not a tail.
  induction hlength : s.length using Nat.strong_induction_on generalizing before s with
  | _ n ih =>
    have shorter : ∀ {t : Text} (b : Text), t.length < s.length → P b t :=
      fun b ht => ih _ (hlength ▸ ht) b _ rfl
    cases s with
    | nil => exact nil before
    | cons c s =>
      by_cases hc : c = '<'
      · subst hc
        cases hconstruct : construct s with
        | closed segment rest =>
          have hrest := construct_length hconstruct
          have hsplit := congrArg List.length (segment.splitContent_append rest)
          rw [List.length_append] at hsplit
          refine closed before s segment rest hconstruct (shorter [] ?_)
          rw [List.length_cons]
          omega
        | unclosed => exact unclosed before s hconstruct
        | bare => exact bare before s hconstruct (shorter _ (Nat.lt_succ_self _))
      · exact data before c s hc (shorter _ (Nat.lt_succ_self _))

/-- The text of a segment that may be left out. -/
theorem source_unlessEmpty {kind : Text → Segment} (h : ∀ u, (kind u).source = u) (u : Text) :
    (unlessEmpty kind u).flatMap source = u := by
  unfold unlessEmpty
  split
  · rename_i hempty
    exact (List.isEmpty_iff.1 hempty).symm
  · simp [h]

/-- **Nothing is lost** when a chapter is cut. -/
theorem source_segmentsAfter (before s : Text) :
    (segmentsAfter before s).flatMap source = before.reverse ++ s := by
  induction before, s using segmentsAfter_induction with
  | nil before =>
    rw [segmentsAfter, source_unlessEmpty fun _ => rfl, List.append_nil]
  | data before c s hc ih =>
    rw [segmentsAfter_data hc, ih, List.reverse_cons, List.append_assoc, List.singleton_append]
  | bare before s hconstruct ih =>
    rw [segmentsAfter_bare hconstruct, ih, List.reverse_cons, List.append_assoc,
      List.singleton_append]
  | unclosed before s hconstruct =>
    rw [segmentsAfter_unclosed hconstruct, List.flatMap_singleton]
    rfl
  | closed before s segment rest hconstruct ih =>
    obtain ⟨used, hsource, rfl, -⟩ := construct_closed hconstruct
    rw [segmentsAfter_closed hconstruct, List.flatMap_append, List.flatMap_cons, follow,
      List.flatMap_append, source_unlessEmpty fun _ => rfl, source_unlessEmpty fun _ => rfl, ih,
      hsource, List.reverse_nil, List.nil_append, splitContent_append, List.cons_append]

/-- No segment of a chapter is raw content unless it follows a tag. -/
theorem segmentsAfter_ne_raw (before s content : Text) (segs : List Segment) :
    segmentsAfter before s ≠ .raw content :: segs := by
  -- Text before segments that do not start with raw content does not start with it either.
  have htext : ∀ {u : Text} {t : List Segment},
      (∀ segs', t ≠ .raw content :: segs') →
        ∀ segs', unlessEmpty .text u ++ t ≠ .raw content :: segs' := by
    intro u t ht segs'
    unfold unlessEmpty
    split
    · exact ht segs'
    · simp
  induction before, s using segmentsAfter_induction with
  | nil before =>
    rw [segmentsAfter, ← List.append_nil (unlessEmpty _ _)]
    exact htext (by simp) segs
  | data before c s hc ih => rwa [segmentsAfter_data hc]
  | bare before s hconstruct ih => rwa [segmentsAfter_bare hconstruct]
  | unclosed before s hconstruct => simp [segmentsAfter_unclosed hconstruct]
  -- No construct is raw content: it comes only behind the tag of its element.
  | closed before s segment rest hconstruct ih =>
    rw [segmentsAfter_closed hconstruct]
    refine htext (fun segs' hraw => ?_) segs
    rw [(List.cons.inj hraw).1] at hconstruct
    exact construct_ne_raw content hconstruct

/-! ## (3) Cutting a chapter at a tag -/

/-- Reading `start ++ rest` behind the character data `before` gives `segs` and then a tag, and
`rest` is what stands behind the tag. -/
inductive Cut (inside rest : Text) : (before start : Text) → List Segment → Prop
  | tag (before : Text) (h : construct (inside ++ ['>'] ++ rest) = .closed (.tag inside) rest) :
      Cut inside rest before ('<' :: (inside ++ ['>'])) (unlessEmpty .text before.reverse)
  | data {before start : Text} {segs : List Segment} {c : Char} (hc : c ≠ '<')
      (h : Cut inside rest (c :: before) start segs) : Cut inside rest before (c :: start) segs
  | bare {before start : Text} {segs : List Segment} (hbare : construct (start ++ rest) = .bare)
      (h : Cut inside rest ('<' :: before) start segs) :
      Cut inside rest before ('<' :: start) segs
  | segment {before used content start : Text} {segment : Segment} {segs : List Segment}
      (hsource : segment.source = '<' :: used)
      (hconstruct : construct (used ++ (content ++ (start ++ rest))) =
        .closed segment (content ++ (start ++ rest)))
      (hcontent : segment.splitContent (content ++ (start ++ rest)) = (content, start ++ rest))
      (h : Cut inside rest [] start segs) :
      Cut inside rest before ('<' :: (used ++ (content ++ start)))
        (unlessEmpty .text before.reverse ++ segment :: (unlessEmpty .raw content ++ segs))

variable {before start : Text} {segs segs' : List Segment}

/-- What is read ends in the bracket of the tag. -/
theorem Cut.bracket_mem (h : Cut inside rest before start segs) : '>' ∈ start := by
  induction h with
  | tag before h => simp
  | data hc h ih => exact List.mem_cons_of_mem _ ih
  | bare hbare h ih => exact List.mem_cons_of_mem _ ih
  | segment hsource hconstruct hcontent h ih => simp [ih]

/-- **The segments of a chapter** that is cut at a tag. -/
theorem Cut.segmentsAfter (h : Cut inside rest before start segs) :
    segmentsAfter before (start ++ rest) = segs ++ .tag inside :: follow (.tag inside) rest := by
  induction h with
  | tag before h => exact segmentsAfter_closed h before
  | data hc h ih =>
    rw [List.cons_append, segmentsAfter_data hc]
    exact ih
  | bare hbare h ih =>
    rw [List.cons_append, segmentsAfter_bare hbare]
    exact ih
  | segment hsource hconstruct hcontent h ih =>
    rw [List.cons_append, List.append_assoc, List.append_assoc, segmentsAfter_closed hconstruct,
      follow, hcontent, ih]
    simp

/-- **The text that was read** is the text of the segments and the tag. -/
theorem Cut.source (h : Cut inside rest before start segs) :
    (segs ++ [Segment.tag inside]).flatMap source = before.reverse ++ start := by
  induction h with
  | tag before h =>
    rw [List.flatMap_append, source_unlessEmpty fun _ => rfl, List.flatMap_singleton]
    rfl
  | data hc h ih =>
    rw [ih, List.reverse_cons, List.append_assoc, List.singleton_append]
  | bare hbare h ih =>
    rw [ih, List.reverse_cons, List.append_assoc, List.singleton_append]
  | segment hsource hconstruct hcontent h ih =>
    rw [List.append_assoc, List.cons_append, List.append_assoc, List.flatMap_append,
      List.flatMap_cons, List.flatMap_append, source_unlessEmpty fun _ => rfl,
      source_unlessEmpty fun _ => rfl, ih, hsource, List.reverse_nil, List.nil_append,
      List.cons_append]

/-- **Another text behind the tag** leaves the cut as it is, if the quotes of all tags up to there
are closed. -/
theorem Cut.replace (h : Cut inside rest before start segs)
    (hbalanced : ∀ segment ∈ segs ++ [Segment.tag inside], segment.IsBalanced) (t : Text) :
    Cut inside t before start segs := by
  induction h with
  | tag before h =>
    obtain ⟨used, hsource, hused, hlocal⟩ := construct_closed h
    obtain rfl : inside ++ ['>'] = used := (List.cons.inj hsource).2
    exact .tag before (hlocal (hbalanced _ (List.mem_append_right _ List.mem_cons_self)) t)
  | data hc h ih => exact .data hc (ih hbalanced)
  | bare hbare h ih =>
    exact .bare (construct_bare_append hbare h.bracket_mem t) (ih hbalanced)
  | @segment before used content start segment segs hsource hconstruct hcontent h ih =>
    obtain ⟨used', hsource', -, hlocal⟩ := construct_closed hconstruct
    obtain rfl : used = used' := (List.cons.inj (hsource.symm.trans hsource')).2
    refine .segment hsource (hlocal (hbalanced segment (by simp)) _)
      (splitContent_replace h.bracket_mem hcontent t) (ih fun segment' hmem => hbalanced _ ?_)
    rw [List.append_assoc, List.cons_append, List.append_assoc]
    exact List.mem_append_right _ (List.mem_cons_of_mem _ (List.mem_append_right _ hmem))

/-- An element of a list that stands behind others of another kind. -/
theorem append_eq_append_cons {l l' before after : List Segment} {a : Segment} (ha : a ∉ l)
    (h : l ++ l' = before ++ a :: after) : ∃ between, before = l ++ between ∧
      l' = between ++ a :: after := by
  rcases List.append_eq_append_iff.1 h with ⟨between, rfl, rfl⟩ | ⟨between, rfl, hafter⟩
  · exact ⟨between, rfl, rfl⟩
  · cases between with
    | nil => exact ⟨[], by simp, by simpa using hafter.symm⟩
    | cons b between =>
      obtain ⟨rfl, -⟩ := List.cons.inj hafter
      exact absurd (by simp) ha

/-- **Where a tag stands,** the chapter is cut into the segments before it and those that follow
it. -/
theorem cut_of_segmentsAfter (h : segmentsAfter before s = segs ++ .tag inside :: segs') :
    ∃ start rest, s = start ++ rest ∧ Cut inside rest before start segs ∧
      segs' = follow (.tag inside) rest := by
  have htext : ∀ {kind : Text → Segment} {u : Text}, (∀ u, .tag inside ≠ kind u) →
      .tag inside ∉ unlessEmpty kind u := by
    intro kind u hkind
    unfold unlessEmpty
    split
    · exact List.not_mem_nil
    · simpa using hkind u
  induction before, s using segmentsAfter_induction generalizing segs with
  | nil before =>
    have hmem : Segment.tag inside ∈ unlessEmpty .text before.reverse := by
      rw [segmentsAfter] at h
      simp [h]
    exact absurd hmem (htext (by simp))
  | data before c s hc ih =>
    rw [segmentsAfter_data hc] at h
    obtain ⟨start, rest, rfl, hcut, hsegs'⟩ := ih h
    exact ⟨c :: start, rest, rfl, .data hc hcut, hsegs'⟩
  | bare before s hconstruct ih =>
    rw [segmentsAfter_bare hconstruct] at h
    obtain ⟨start, rest, rfl, hcut, hsegs'⟩ := ih h
    exact ⟨'<' :: start, rest, rfl, .bare hconstruct hcut, hsegs'⟩
  | unclosed before s hconstruct =>
    have hmem : Segment.tag inside ∈ [.text (before.reverse ++ '<' :: s)] := by
      rw [← segmentsAfter_unclosed hconstruct, h]
      simp
    simp at hmem
  | closed before s segment rest hconstruct ih =>
    rw [segmentsAfter_closed hconstruct] at h
    obtain ⟨used, hsource, rfl, -⟩ := construct_closed hconstruct
    obtain ⟨between, rfl, hbetween⟩ := append_eq_append_cons (htext (by simp)) h
    cases between with
    | nil =>
      -- The construct is the tag.
      obtain ⟨rfl, rfl⟩ := List.cons.inj hbetween
      obtain rfl : inside ++ ['>'] = used := (List.cons.inj hsource).2
      exact ⟨'<' :: (inside ++ ['>']), rest, rfl, by simpa using .tag before hconstruct, rfl⟩
    | cons b between =>
      -- The tag stands behind the construct and its content.
      obtain ⟨rfl, hfollow⟩ := List.cons.inj hbetween
      obtain ⟨segs, rfl, hrest⟩ := append_eq_append_cons (htext (by simp)) hfollow
      obtain ⟨start, rest', hstart, hcut, rfl⟩ := ih hrest
      have hsplit := segment.splitContent_append rest
      rw [hstart] at hsplit
      refine ⟨'<' :: (used ++ ((segment.splitContent rest).1 ++ start)), rest', ?_, ?_, rfl⟩
      · simp only [List.cons_append, List.append_assoc, hsplit]
      · have hcontent : segment.splitContent ((segment.splitContent rest).1 ++ (start ++ rest')) =
            ((segment.splitContent rest).1, start ++ rest') := by
          rw [hsplit, ← hstart]
        rw [← hsplit] at hconstruct
        exact .segment hsource hconstruct hcontent hcut

end Segment

end ChapterLayout
