import Mathlib.Data.List.Infix
import ChapterLayout.Proofs.Markup.ReadBack

/-! # Markup is read from left to right

Where a construct ends is decided by the text up to its end, whatever stands behind it. Only a quote
that is never closed is looked for up to the end of the chapter: `Segment.IsBalanced` rules that out
for a tag.

* **`Segment.construct_closed`** — a construct is read from its own text;
* **`Segment.construct_bare_append`** — a bracket that starts nothing is told from the text up to
  the next bracket;
* **`Segment.splitRaw_spec`** — raw content reaches up to the closing tag of its element;
* **`Segment.splitRaw_append`** — and ends there whatever stands behind that tag. -/

namespace ChapterLayout

/-! ## (1) Searches -/

namespace Text

variable {needle s before after : Text} {c : Char}

/-- A needle without `c` is looked for in front of `c` only. -/
theorem isPrefixOf_append_cons (hc : c ∉ needle) (s t : Text) :
    needle.isPrefixOf (s ++ c :: t) = needle.isPrefixOf s := by
  induction needle generalizing s with
  | nil => simp
  | cons d needle ih =>
    obtain ⟨hd, hneedle⟩ := not_or.1 (List.mem_cons.not.1 hc)
    cases s with
    | nil => simp [List.isPrefixOf, Ne.symm hd]
    | cons e s => simp [List.isPrefixOf, ih hneedle]

/-- A needle that is no longer than a text is looked for in that text only. -/
theorem isPrefixOf_append (h : needle.length ≤ s.length) (t : Text) :
    needle.isPrefixOf (s ++ t) = needle.isPrefixOf s := by
  rw [Bool.eq_iff_iff, List.isPrefixOf_iff_prefix, List.isPrefixOf_iff_prefix]
  constructor
  · intro hpre
    exact List.prefix_of_prefix_length_le hpre (List.prefix_append s t) h
  · intro hpre
    exact hpre.trans (List.prefix_append s t)

/-- **The first occurrence** of a needle is found in the text up to its end. -/
theorem splitAtFirst_some (h : splitAtFirst needle s = some (before, after)) :
    s = before ++ needle ++ after ∧
      ∀ t, splitAtFirst needle (before ++ needle ++ t) = some (before, t) := by
  have start : ∀ t, splitAtFirst needle (needle ++ t) = some ([], t) := by
    intro t
    cases hs : needle ++ t with
    | nil =>
      obtain ⟨rfl, rfl⟩ := List.append_eq_nil_iff.1 hs
      rfl
    | cons c u =>
      have hpre : needle.isPrefixOf (c :: u) = true :=
        List.isPrefixOf_iff_prefix.2 ⟨t, hs⟩
      rw [splitAtFirst, if_pos hpre, ← hs, List.drop_left]
  induction s generalizing before with
  | nil =>
    rw [splitAtFirst] at h
    split at h
    · rename_i hempty
      obtain rfl := List.isEmpty_iff.1 hempty
      obtain ⟨rfl, rfl⟩ := Prod.mk.inj (Option.some.inj h)
      exact ⟨rfl, start⟩
    · cases h
  | cons c s ih =>
    rw [splitAtFirst] at h
    split at h
    · rename_i hpre
      obtain ⟨rfl, rfl⟩ := Prod.mk.inj (Option.some.inj h)
      obtain ⟨u, hu⟩ := List.isPrefixOf_iff_prefix.1 hpre
      refine ⟨?_, start⟩
      rw [← hu, List.drop_left]
      rfl
    · rename_i hpre
      obtain ⟨⟨before', after'⟩, hsplit, heq⟩ := Option.map_eq_some_iff.1 h
      obtain ⟨rfl, rfl⟩ := Prod.mk.inj heq
      obtain ⟨rfl, hlocal⟩ := ih hsplit
      refine ⟨rfl, fun t => ?_⟩
      -- No needle starts here: the text up to the end of the first one is long enough to tell.
      have hlong : needle.length ≤ (c :: (before' ++ needle)).length := by
        simp only [List.length_cons, List.length_append]
        omega
      have hpre' : ¬needle.isPrefixOf (c :: (before' ++ needle ++ t)) = true := by
        rw [← List.cons_append, isPrefixOf_append hlong] at hpre ⊢
        exact hpre
      rw [List.cons_append, List.cons_append, splitAtFirst, if_neg hpre', hlocal]
      rfl

end Text

namespace Segment

variable {s t inside rest content name : Text} {segment : Segment}

/-! ## (2) Constructs -/

/-- The end of a tag is found in the text up to its bracket. -/
theorem tagEnd_closed {quote : Option Char} {last : Char}
    (h : tagEnd quote last s = .closed inside rest) :
    s = inside ++ '>' :: rest ∧
      ∀ t, tagEnd quote last (inside ++ '>' :: t) = .closed inside t := by
  induction s generalizing quote last inside with
  | nil => cases quote <;> cases h
  | cons c s ih =>
    -- A character before the bracket only changes what is open at the next one.
    have step : ∀ {q : Option Char} {l : Char}, (tagEnd q l s).cons c = .closed inside rest →
        ∃ inside', inside = c :: inside' ∧ s = inside' ++ '>' :: rest ∧
          ∀ t, (tagEnd q l (inside' ++ '>' :: t)).cons c = .closed inside t := by
      intro q l hcons
      cases hend : tagEnd q l s with
      | closed inside' rest' =>
        rw [hend] at hcons
        obtain ⟨rfl, rfl⟩ := TagEnd.closed.inj hcons
        obtain ⟨hs, hlocal⟩ := ih hend
        refine ⟨inside', rfl, hs, fun t => ?_⟩
        rw [hlocal]
        rfl
      | openQuote =>
        rw [hend] at hcons
        cases hcons
      | missing =>
        rw [hend] at hcons
        cases hcons
    cases quote with
    | none =>
      rw [tagEnd] at h
      split at h
      · rename_i hbracket
        obtain rfl : c = '>' := by simpa using hbracket
        obtain ⟨rfl, rfl⟩ := TagEnd.closed.inj h
        exact ⟨rfl, fun _ => rfl⟩
      · rename_i hbracket
        obtain ⟨inside', rfl, rfl, hlocal⟩ := step h
        refine ⟨rfl, fun t => ?_⟩
        rw [List.cons_append, tagEnd, if_neg hbracket]
        exact hlocal t
    | some quote =>
      obtain ⟨inside', rfl, rfl, hlocal⟩ := step h
      exact ⟨rfl, hlocal⟩

/-- Whether every quote that is opened in a tag is closed in it. The end of other constructs does
not depend on quotes. -/
def IsBalanced : Segment → Prop
  | .tag inside => ∃ rest, tagEnd none '<' (inside ++ ['>']) = .closed inside rest
  | _ => True

/-- What stands between the brackets of a tag is read from the text up to its bracket, if its quotes
are closed there. -/
theorem tagInside?_some (h : tagInside? s = some (inside, rest)) :
    s = inside ++ '>' :: rest ∧
      ((Segment.tag inside).IsBalanced →
        ∀ t, tagInside? (inside ++ '>' :: t) = some (inside, t)) := by
  constructor
  · unfold tagInside? at h
    split at h
    · rename_i hend
      obtain ⟨rfl, rfl⟩ := Prod.mk.inj (Option.some.inj h)
      exact (tagEnd_closed hend).1
    · simpa using (Text.splitAtFirst_some h).1
    · cases h
  · rintro ⟨u, hend⟩ t
    rw [tagInside?, (tagEnd_closed hend).2]

/-- Nothing starts at a bracket unless it is followed by a mark or starts a tag. -/
theorem construct_eq_bare_iff (s : Text) :
    construct s = .bare ↔
      (['!'].isPrefixOf s || ['?'].isPrefixOf s) = false ∧ startsTag s = false := by
  have hmark : ∀ m : Text, ('!' :: m).isPrefixOf s = true → ['!'].isPrefixOf s = true := by
    intro m hm
    cases s with
    | nil => cases hm
    | cons c s =>
      rw [List.isPrefixOf, Bool.and_eq_true] at hm ⊢
      exact ⟨hm.1, rfl⟩
  -- A construct that is looked for up to its end is closed or not, but it is not bare.
  have hupTo : ∀ close (f : Text → Segment) u, Construct.upTo close f u ≠ .bare := by
    intro close f u
    unfold Construct.upTo
    split <;> simp
  unfold construct
  split
  · rename_i hcomment
    simp [hupTo, hmark _ hcomment]
  · split
    · rename_i hdata
      simp [hupTo, hmark _ hdata]
    · split
      · rename_i hdeclaration
        have hdeclaration' : (['!'].isPrefixOf s || ['?'].isPrefixOf s) = true := hdeclaration
        simp [hupTo, hdeclaration']
      · rename_i hdeclaration
        have hdeclaration' : (['!'].isPrefixOf s || ['?'].isPrefixOf s) = false :=
          Bool.not_eq_true _ ▸ hdeclaration
        rw [hdeclaration']
        split
        · rename_i htag
          split <;> simp [htag]
        -- No branch is left but that of a bracket that starts nothing.
        · rename_i htag
          simpa using htag

/-- Whether a tag starts is told by the text up to the first bracket. -/
theorem startsTag_append_bracket (s t u : Text) :
    startsTag (s ++ '>' :: t) = startsTag (s ++ '>' :: u) := by
  match s with
  | [] => rfl
  | [c] =>
    by_cases hc : c = '/'
    · subst hc
      rfl
    · simp [startsTag, hc]
  | c :: d :: s =>
    by_cases hc : c = '/'
    · subst hc
      rfl
    · simp [startsTag, hc]

/-- The bracket that ends a tag is no part of what starts it. -/
theorem startsTag_of_bracket (h : startsTag (s ++ '>' :: rest) = true) : startsTag s = true := by
  match s, h with
  | [c], h =>
    by_cases hc : c = '/'
    · subst hc
      exact h
    · simpa [startsTag, hc] using h
  | c :: d :: s, h =>
    by_cases hc : c = '/'
    · subst hc
      exact h
    · simpa [startsTag, hc] using h

/-- **What starts nothing** up to a closing bracket starts nothing whatever stands behind it. -/
theorem construct_bare_append (h : construct (s ++ rest) = .bare) (hs : '>' ∈ s) (t : Text) :
    construct (s ++ t) = .bare := by
  obtain ⟨u, v, rfl⟩ := List.append_of_mem hs
  have hbang : ∀ w, ['!'].isPrefixOf (u ++ '>' :: w) = ['!'].isPrefixOf u :=
    Text.isPrefixOf_append_cons (by decide) u
  have hquery : ∀ w, ['?'].isPrefixOf (u ++ '>' :: w) = ['?'].isPrefixOf u :=
    Text.isPrefixOf_append_cons (by decide) u
  simp only [List.append_assoc, List.cons_append] at h ⊢
  rw [construct_eq_bare_iff, hbang, hquery] at h ⊢
  rw [startsTag_append_bracket u _ (v ++ rest)]
  exact h

/-- A construct that ends at the first `close` is read from the text up to there. -/
theorem upTo_closed {close : Text} {f : Text → Segment}
    (h : Construct.upTo close f s = .closed segment rest) :
    ∃ inside, segment = f inside ∧ s = inside ++ close ++ rest ∧
      ∀ t, Construct.upTo close f (inside ++ close ++ t) = .closed segment t := by
  unfold Construct.upTo at h
  split at h
  · rename_i inside rest' hsplit
    obtain ⟨rfl, rfl⟩ := Construct.closed.inj h
    obtain ⟨hs, hlocal⟩ := Text.splitAtFirst_some hsplit
    refine ⟨inside, rfl, hs, fun t => ?_⟩
    rw [Construct.upTo, hlocal]
  · cases h

/-- A comment ends at the first `-->`. -/
theorem construct_comment (s : Text) :
    construct ("!--".toList ++ s) = .upTo "-->".toList
      (fun inside => .hidden ("<!--".toList ++ inside ++ "-->".toList)) s := by
  rw [construct, if_pos (List.isPrefixOf_iff_prefix.2 (List.prefix_append _ s))]
  rfl

/-- A character data section ends at the first `]]>`. -/
theorem construct_verbatim (s : Text) :
    construct ("![CDATA[".toList ++ s) = .upTo "]]>".toList .verbatim s := by
  have hcomment : ¬"!--".toList.isPrefixOf ("![CDATA[".toList ++ s) = true := by
    rw [Text.isPrefixOf_append (by decide)]
    decide
  rw [construct, if_neg hcomment, if_pos (List.isPrefixOf_iff_prefix.2 (List.prefix_append _ s))]
  rfl

/-- **A construct is read from its own text,** if its quotes are closed in it. -/
theorem construct_closed (h : construct s = .closed segment rest) :
    ∃ used, segment.source = '<' :: used ∧ s = used ++ rest ∧
      (segment.IsBalanced → ∀ t, construct (used ++ t) = .closed segment t) := by
  have hopen : "<!--".toList = '<' :: "!--".toList := by decide
  have hopen' : "<![CDATA[".toList = '<' :: "![CDATA[".toList := by decide
  by_cases hcomment : "!--".toList.isPrefixOf s = true
  · obtain ⟨u, rfl⟩ := List.isPrefixOf_iff_prefix.1 hcomment
    rw [construct_comment] at h
    obtain ⟨inside, rfl, rfl, hlocal⟩ := upTo_closed h
    refine ⟨"!--".toList ++ (inside ++ "-->".toList), ?_, (List.append_assoc _ _ _).symm,
      fun _ t => ?_⟩
    · show "<!--".toList ++ inside ++ "-->".toList = _
      rw [hopen, List.append_assoc, List.cons_append]
    · rw [List.append_assoc, construct_comment]
      exact hlocal t
  · by_cases hdata : "![CDATA[".toList.isPrefixOf s = true
    · obtain ⟨u, rfl⟩ := List.isPrefixOf_iff_prefix.1 hdata
      rw [construct_verbatim] at h
      obtain ⟨inside, rfl, rfl, hlocal⟩ := upTo_closed h
      refine ⟨"![CDATA[".toList ++ (inside ++ "]]>".toList), ?_, (List.append_assoc _ _ _).symm,
        fun _ t => ?_⟩
      · show "<![CDATA[".toList ++ inside ++ "]]>".toList = _
        rw [hopen', List.append_assoc, List.cons_append]
      · rw [List.append_assoc, construct_verbatim]
        exact hlocal t
    · rw [construct, if_neg hcomment, if_neg hdata] at h
      split at h
      · -- A declaration or a processing instruction: its marks stand in front of its bracket.
        rename_i hmark
        obtain ⟨inside, rfl, rfl, hlocal⟩ := upTo_closed h
        have hother : ∀ {mark : Text}, '>' ∉ mark → ∀ u,
            mark.isPrefixOf (inside ++ ['>'] ++ u) = mark.isPrefixOf inside := by
          intro mark hbracket u
          rw [List.append_assoc]
          exact Text.isPrefixOf_append_cons hbracket inside u
        rw [hother (by decide)] at hcomment hdata
        rw [hother (by decide), hother (by decide)] at hmark
        refine ⟨inside ++ ['>'], rfl, rfl, fun _ t => ?_⟩
        unfold construct
        rw [hother (by decide), hother (by decide), hother (by decide), hother (by decide),
          if_neg hcomment, if_neg hdata, if_pos hmark]
        exact hlocal t
      · split at h
        · -- A tag.
          rename_i hstart
          split at h
          · rename_i inside rest' hinside
            obtain ⟨rfl, rfl⟩ := Construct.closed.inj h
            obtain ⟨rfl, hlocal⟩ := tagInside?_some hinside
            refine ⟨inside ++ ['>'], rfl, by simp, fun hbalanced t => ?_⟩
            rw [List.append_assoc]
            refine construct_of_startsTag ?_ (hlocal hbalanced t)
            rw [List.singleton_append, startsTag_append_bracket inside t rest']
            exact hstart
          · cases h
        · cases h

/-- No construct is raw content. -/
theorem construct_ne_raw (content : Text) : construct s ≠ .closed (.raw content) rest := by
  intro h
  have hupTo : ∀ {close : Text} {f : Text → Segment} {u : Text}, (∀ v, f v ≠ .raw content) →
      Construct.upTo close f u ≠ .closed (.raw content) rest := by
    intro close f u hf hclosed
    obtain ⟨inside, hsegment, -⟩ := upTo_closed hclosed
    exact hf inside hsegment.symm
  unfold construct at h
  split at h
  · exact hupTo (by simp) h
  · split at h
    · exact hupTo (by simp) h
    · split at h
      · exact hupTo (by simp) h
      · split at h
        · split at h
          · cases h
          · cases h
        · cases h

/-! ## (3) Raw content -/

/-- Blanks are trimmed in front of a bracket. -/
theorem trimLeft_append_bracket (s t : Text) :
    Text.trimLeft Text.isBlank (s ++ '>' :: t) = Text.trimLeft Text.isBlank s ++ '>' :: t := by
  induction s with
  | nil => rfl
  | cons c s ih =>
    unfold Text.trimLeft at ih ⊢
    rw [List.cons_append, List.dropWhile_cons, List.dropWhile_cons]
    split
    · exact ih
    · rfl

/-- A name without brackets is looked for in front of a bracket. -/
theorem dropName?_append_bracket (hname : ∀ letter ∈ name, Text.sameLetter letter '>' = false)
    (s t : Text) : dropName? name (s ++ '>' :: t) = (dropName? name s).map (· ++ '>' :: t) := by
  induction name generalizing s with
  | nil => rfl
  | cons letter name ih =>
    obtain ⟨hletter, hname⟩ := List.forall_mem_cons.1 hname
    cases s with
    | nil => simp [dropName?, hletter]
    | cons c s =>
      rw [List.cons_append, dropName?, dropName?, ih hname]
      split <;> rfl

/-- No letter of a raw element's name is a bracket. -/
theorem not_sameLetter_bracket (hname : name ∈ Token.rawNames) :
    ∀ letter ∈ name, Text.sameLetter letter '>' = false := by
  have hall : ∀ n ∈ Token.rawNames, n.all (fun letter => !Text.sameLetter letter '>') = true := by
    decide
  intro letter hletter
  simpa using List.all_eq_true.1 (hall name hname) letter hletter

/-- Whether an element is closed is told by the text up to the first bracket. -/
theorem closesElement_append_bracket (hname : name ∈ Token.rawNames) (s t : Text) :
    closesElement name (s ++ '>' :: t) = closesElement name (s ++ ['>']) := by
  match s with
  | [] => rfl
  | [c] =>
    by_cases hc : c = '<'
    · subst hc
      rfl
    · simp [closesElement, hc]
  -- Two characters decide whether an element can be closed here, and the rest is read up to the
  -- bracket.
  | c :: d :: s =>
    by_cases hmark : c = '<' ∧ d = '/'
    · obtain ⟨rfl, rfl⟩ := hmark
      have hletters := not_sameLetter_bracket hname
      simp only [List.cons_append, closesElement, trimLeft_append_bracket,
        dropName?_append_bracket hletters]
      cases dropName? name (Text.trimLeft Text.isBlank s) with
      | none => rfl
      | some u =>
        simp only [Option.map_some, trimLeft_append_bracket, List.head?_append]
        rfl
    · have hother : ∀ u, closesElement name (c :: d :: u) = false := by
        intro u
        unfold closesElement
        split
        · rename_i heq
          exact absurd ⟨(List.cons.inj heq).1, (List.cons.inj (List.cons.inj heq).2).1⟩ hmark
        · rfl
      rw [List.cons_append, List.cons_append, List.cons_append, List.cons_append, hother, hother]

/-- The same for a text that holds a bracket. -/
theorem closesElement_append (hname : name ∈ Token.rawNames) (hs : '>' ∈ s) (t u : Text) :
    closesElement name (s ++ t) = closesElement name (s ++ u) := by
  obtain ⟨v, w, rfl⟩ := List.append_of_mem hs
  simp only [List.append_assoc, List.cons_append]
  rw [closesElement_append_bracket hname, closesElement_append_bracket hname v (w ++ u)]

/-- **Raw content** and the text behind it make up the text, and the text behind it closes the
element unless it is empty. -/
theorem splitRaw_spec (name s : Text) :
    (splitRaw name s).1 ++ (splitRaw name s).2 = s ∧
      ((splitRaw name s).2 = [] ∨ closesElement name (splitRaw name s).2 = true) := by
  induction s with
  | nil => exact ⟨rfl, .inl rfl⟩
  | cons c s ih =>
    rw [splitRaw]
    split
    · rename_i hcloses
      exact ⟨rfl, .inr hcloses⟩
    · exact ⟨congrArg (c :: ·) ih.1, ih.2⟩

/-- No raw content stands before a closing tag, nor at the end. -/
theorem splitRaw_of_closes (h : s = [] ∨ closesElement name s = true) :
    splitRaw name s = ([], s) := by
  cases s with
  | nil => rfl
  | cons c s =>
    obtain hnil | hcloses := h
    · cases hnil
    · rw [splitRaw, if_pos hcloses]

/-- **Raw content ends at the same place** whatever stands behind the first bracket after it. -/
theorem splitRaw_append (hname : name ∈ Token.rawNames) (hs : '>' ∈ s)
    (h : splitRaw name (content ++ (s ++ rest)) = (content, s ++ rest)) (t : Text) :
    splitRaw name (content ++ (s ++ t)) = (content, s ++ t) := by
  -- The induction is on the content: no part of it closes the element, with any rest behind.
  induction content with
  | nil =>
    rw [List.nil_append] at h ⊢
    have hcloses : closesElement name (s ++ rest) = true := by
      obtain hnil | hcloses := (splitRaw_spec name (s ++ rest)).2
      · rw [h] at hnil
        rw [(List.append_eq_nil_iff.1 hnil).1] at hs
        cases hs
      · rwa [h] at hcloses
    refine splitRaw_of_closes (.inr ?_)
    rw [closesElement_append hname hs t rest]
    exact hcloses
  | cons c content ih =>
    have hmem : '>' ∈ c :: content ++ s := List.mem_append_right _ hs
    rw [List.cons_append, splitRaw] at h ⊢
    have hcloses := closesElement_append hname hmem t rest
    rw [List.append_assoc, List.append_assoc, List.cons_append, List.cons_append] at hcloses
    rw [hcloses]
    split at h
    · cases h
    · rename_i hopen
      obtain ⟨hfirst, hsecond⟩ := Prod.mk.inj h
      have hsplit : splitRaw name (content ++ (s ++ rest)) = (content, s ++ rest) :=
        Prod.ext (List.cons.inj hfirst).2 hsecond
      rw [if_neg hopen, ih hsplit]

end Segment

end ChapterLayout
