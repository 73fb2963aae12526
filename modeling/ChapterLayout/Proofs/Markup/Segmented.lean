import ChapterLayout.Proofs.Markup.RawElement

/-! # The segments of a chapter

A chapter is cut into consecutive segments, and every segment gives at most one token. Nothing is
lost between two segments and nothing is read twice, whatever the chapter holds:

* **`Segment.Reads`** — the text a segment of each kind is cut from, and the tokens it gives;
* **`Segment.reads_segmentsAfter`** — every segment of a chapter is read so;
* **`Segment.RawAfterTag`** — whether raw content stands directly behind the tag of its element;
* **`Token.scan_segmented`** — the tokens of a chapter are those of segments that make it up. -/

namespace ChapterLayout

/-- Before its first occurrence a text does not occur. -/
theorem Text.not_infix_of_splitAtFirst {needle s before after : Text} (hne : needle ≠ [])
    (h : splitAtFirst needle s = some (before, after)) : ¬needle <:+: before := by
  induction s generalizing before with
  | nil =>
    simp [splitAtFirst, hne] at h
  | cons c s ih =>
    rw [splitAtFirst] at h
    split at h
    · obtain ⟨rfl, -⟩ := Prod.mk.inj (Option.some.inj h)
      simpa using hne
    · rename_i hstart
      obtain ⟨⟨before', after'⟩, hsplit, heq⟩ := Option.map_eq_some_iff.1 h
      obtain ⟨rfl, rfl⟩ := Prod.mk.inj heq
      intro hinfix
      rcases List.infix_cons_iff.1 hinfix with hprefix | hinfix
      · -- An occurrence at the start would have been the first one.
        apply hstart
        rw [List.isPrefixOf_iff_prefix, (splitAtFirst_some hsplit).1]
        apply hprefix.trans
        simp
      · exact ih hsplit hinfix

namespace Segment

/-! ## (1) How segments are read -/

/-- How a segment of each kind is read: the text it is cut from and the tokens it gives. Every
construct ends where its closing mark first occurs, and a declaration or processing instruction is
none of the constructs with longer marks. -/
inductive Reads (asciiOnly : Bool) : Segment → Text → List Token → Prop
  | text {s : Text} (hne : s ≠ []) :
      Reads asciiOnly (.text s) s [.text (Entity.decode asciiOnly s)]
  | comment {inside : Text} (hinside : ¬"-->".toList <:+: inside) :
      Reads asciiOnly (.hidden ("<!--".toList ++ inside ++ "-->".toList))
        ("<!--".toList ++ inside ++ "-->".toList) []
  | declaration {mark : Char} {inside : Text} (hmark : mark = '!' ∨ mark = '?')
      (hcomment : ¬"!--".toList <+: mark :: inside)
      (hdata : ¬"![CDATA[".toList <+: mark :: inside) (hinside : '>' ∉ mark :: inside) :
      Reads asciiOnly (.hidden ('<' :: (mark :: inside) ++ ['>']))
        ('<' :: (mark :: inside) ++ ['>']) []
  | verbatim {inside : Text} (hinside : ¬"]]>".toList <:+: inside) :
      Reads asciiOnly (.verbatim inside) ("<![CDATA[".toList ++ inside ++ "]]>".toList)
        (Token.ofText inside)
  | tag {inside : Text} (hstart : startsTag inside = true) :
      Reads asciiOnly (.tag inside) ('<' :: inside ++ ['>']) [Token.ofTag asciiOnly inside]
  | raw {s : Text} (hne : s ≠ []) : Reads asciiOnly (.raw s) s [.text s]

variable {asciiOnly : Bool} {before s rest : Text} {segment : Segment} {segs : List Segment}

/-- Whether a segment is read as its kind asks for. -/
def IsRead (asciiOnly : Bool) (segment : Segment) : Prop :=
  Reads asciiOnly segment segment.source (segment.tokens asciiOnly)

/-- Segments that are left out if they are empty. -/
theorem isRead_unlessEmpty {kind : Text → Segment}
    (hkind : ∀ {u}, u ≠ [] → IsRead asciiOnly (kind u)) :
    ∀ segment ∈ unlessEmpty kind s, segment.IsRead asciiOnly := by
  intro segment hmem
  unfold unlessEmpty at hmem
  split at hmem
  · cases hmem
  · rename_i hne
    rw [List.mem_singleton.1 hmem]
    apply hkind
    simpa using hne

/-- A construct ends at the first of its closing marks. -/
theorem exists_of_upTo {close : Text} {f : Text → Segment} (hne : close ≠ [])
    (h : Construct.upTo close f s = .closed segment rest) :
    ∃ inside, segment = f inside ∧ s = inside ++ close ++ rest ∧ ¬close <:+: inside := by
  unfold Construct.upTo at h
  split at h
  · rename_i inside rest' hsplit
    obtain ⟨rfl, rfl⟩ := Construct.closed.inj h
    exact ⟨inside, rfl, (Text.splitAtFirst_some hsplit).1,
      Text.not_infix_of_splitAtFirst hne hsplit⟩
  · cases h

/-- A declaration or processing instruction, from its text behind the bracket. -/
theorem isRead_declaration {inside : Text}
    (hmark : ("!".toList.isPrefixOf (inside ++ ['>'] ++ rest) ||
      "?".toList.isPrefixOf (inside ++ ['>'] ++ rest)) = true)
    (hcomment : ¬"!--".toList.isPrefixOf (inside ++ ['>'] ++ rest) = true)
    (hdata : ¬"![CDATA[".toList.isPrefixOf (inside ++ ['>'] ++ rest) = true)
    (hinside : ¬['>'] <:+: inside) : IsRead asciiOnly (.hidden ('<' :: inside ++ ['>'])) := by
  have hbracket : '>' ∉ inside := by
    rwa [List.singleton_infix_iff] at hinside
  have hother : ∀ {mark : Text}, ¬mark.isPrefixOf (inside ++ ['>'] ++ rest) = true →
      ¬mark <+: inside := by
    intro mark hnot hpre
    apply hnot
    rw [List.isPrefixOf_iff_prefix, List.append_assoc]
    exact hpre.trans (List.prefix_append _ _)
  cases inside with
  | nil =>
    -- The closing bracket is no mark.
    simp [List.isPrefixOf] at hmark
  | cons mark inside =>
    apply Reads.declaration
    · have hmark' : '!' = mark ∨ '?' = mark := by simpa [List.isPrefixOf] using hmark
      exact hmark'.imp Eq.symm Eq.symm
    · exact hother hcomment
    · exact hother hdata
    · exact hbracket

/-- **A construct that is closed** is read as its kind asks for. -/
theorem isRead_construct (h : construct s = .closed segment rest) : segment.IsRead asciiOnly := by
  unfold construct at h
  split at h
  · obtain ⟨inside, rfl, -, hinside⟩ := exists_of_upTo (by decide) h
    exact .comment hinside
  split at h
  · obtain ⟨inside, rfl, -, hinside⟩ := exists_of_upTo (by decide) h
    exact .verbatim hinside
  rename_i hcomment hdata
  split at h
  · rename_i hmark
    obtain ⟨inside, rfl, rfl, hinside⟩ := exists_of_upTo (by decide) h
    exact isRead_declaration hmark hcomment hdata hinside
  split at h
  · rename_i hstart
    split at h
    · rename_i inside rest' hinside
      obtain ⟨rfl, rfl⟩ := Construct.closed.inj h
      rw [(tagInside?_some hinside).1] at hstart
      exact .tag (startsTag_of_bracket hstart)
    · cases h
  · cases h

/-- **Every segment of a chapter** is read as its kind asks for. -/
theorem reads_segmentsAfter (asciiOnly : Bool) (before s : Text) :
    ∀ segment ∈ segmentsAfter before s, segment.IsRead asciiOnly := by
  induction before, s using segmentsAfter_induction with
  | nil before =>
    rw [segmentsAfter]
    exact isRead_unlessEmpty .text
  | data before c s hc ih => rwa [segmentsAfter_data hc]
  | bare before s hconstruct ih => rwa [segmentsAfter_bare hconstruct]
  | unclosed before s hconstruct =>
    rw [segmentsAfter_unclosed hconstruct]
    intro segment hmem
    rw [List.mem_singleton.1 hmem]
    apply Reads.text
    simp
  | closed before s segment rest hconstruct ih =>
    rw [segmentsAfter_closed hconstruct, follow]
    intro other hmem
    simp only [List.mem_append, List.mem_cons] at hmem
    rcases hmem with htext | rfl | hraw | hlater
    · exact isRead_unlessEmpty .text other htext
    · exact isRead_construct hconstruct
    · exact isRead_unlessEmpty .raw other hraw
    · exact ih other hlater

/-! ## (2) Where raw content stands -/

/-- Whether raw content stands directly behind the tag that opens its element only. -/
def RawAfterTag (segs : List Segment) : Prop :=
  ∀ earlier content later, segs = earlier ++ .raw content :: later →
    ∃ first inside, earlier = first ++ [.tag inside] ∧ ((Segment.tag inside).rawName?).isSome

/-- Character data has no place in the rule. -/
theorem RawAfterTag.text (h : RawAfterTag segs) (u : Text) :
    RawAfterTag (unlessEmpty .text u ++ segs) := by
  intro earlier content later hsplit
  have htext : Segment.raw content ∉ unlessEmpty .text u := by
    unfold unlessEmpty
    split
    · simp
    · simp
  obtain ⟨between, rfl, hbetween⟩ := append_eq_append_cons htext hsplit
  obtain ⟨first, inside, rfl, hname⟩ := h between content later hbetween
  exact ⟨unlessEmpty .text u ++ first, inside, by simp, hname⟩

/-- A segment that is no raw content, in front of others. -/
theorem RawAfterTag.cons (h : RawAfterTag segs) (hraw : ∀ content, segment ≠ .raw content) :
    RawAfterTag (segment :: segs) := by
  rintro (_ | ⟨first, earlier⟩) content later hsplit
  · exact absurd (List.cons.inj hsplit).1 (hraw content)
  · obtain ⟨rfl, hsegs⟩ := List.cons.inj hsplit
    obtain ⟨first, inside, rfl, hname⟩ := h earlier content later hsegs
    exact ⟨segment :: first, inside, rfl, hname⟩

/-- Raw content behind the tag that opens its element. -/
theorem RawAfterTag.tagContent {inside : Text} (h : RawAfterTag segs)
    (hname : ((Segment.tag inside).rawName?).isSome) (content : Text) :
    RawAfterTag (.tag inside :: .raw content :: segs) := by
  rintro (_ | ⟨first, _ | ⟨second, earlier⟩⟩) other later hsplit
  · cases hsplit
  · obtain ⟨rfl, -⟩ := List.cons.inj hsplit
    exact ⟨[], inside, rfl, hname⟩
  · obtain ⟨rfl, htail⟩ := List.cons.inj hsplit
    obtain ⟨rfl, hsegs⟩ := List.cons.inj htail
    obtain ⟨first, inside', rfl, hname'⟩ := h earlier other later hsegs
    exact ⟨.tag inside :: .raw content :: first, inside', rfl, hname'⟩

/-- **In a chapter** raw content stands directly behind the tag that opens its element only. -/
theorem rawAfterTag_segmentsAfter (before s : Text) : RawAfterTag (segmentsAfter before s) := by
  have hnil : RawAfterTag [] := by
    intro earlier content later hsplit
    simp at hsplit
  induction before, s using segmentsAfter_induction with
  | nil before =>
    rw [segmentsAfter, ← List.append_nil (unlessEmpty _ _)]
    exact hnil.text _
  | data before c s hc ih => rwa [segmentsAfter_data hc]
  | bare before s hconstruct ih => rwa [segmentsAfter_bare hconstruct]
  | unclosed before s hconstruct =>
    rw [segmentsAfter_unclosed hconstruct]
    apply hnil.cons
    simp
  | closed before s segment rest hconstruct ih =>
    have hsegment : ∀ content, segment ≠ .raw content := by
      rintro content rfl
      exact construct_ne_raw content hconstruct
    rw [segmentsAfter_closed hconstruct]
    apply RawAfterTag.text
    unfold follow unlessEmpty
    split
    · exact ih.cons hsegment
    · rename_i hcontent
      -- Only a tag that opens a raw element is followed by content.
      cases hname : segment.rawName? with
      | none => simp [splitContent, hname] at hcontent
      | some name =>
        cases segment with
        | tag inside => exact ih.tagContent (by simp [hname]) _
        | _ => cases hname

end Segment

/-! ## (3) Tokens -/

/-- **Nothing is lost and nothing is read twice.** Every chapter is cut into segments that make it
up, and its tokens are those of the segments in their order: a text with its references decoded for
character data, none for a comment, declaration or processing instruction, the content of a
character data section as it stands unless it is empty, the token of a tag, and raw content as it
stands. Raw content stands directly behind the opening tag of a raw element only. -/
theorem Token.scan_segmented (chapter : Text) (asciiOnly : Bool) :
    ∃ segs : List Segment, segs.flatMap Segment.source = chapter ∧
      scan chapter asciiOnly = segs.flatMap (Segment.tokens asciiOnly) ∧
      (∀ segment ∈ segs,
        Segment.Reads asciiOnly segment segment.source (segment.tokens asciiOnly)) ∧
      ∀ earlier content later, segs = earlier ++ .raw content :: later →
        ∃ first inside name attributes, earlier = first ++ [.tag inside] ∧
          ofTag asciiOnly inside = .opening name attributes ∧ name ∈ rawNames := by
  refine ⟨segments chapter, ?_, rfl, Segment.reads_segmentsAfter asciiOnly [] chapter, ?_⟩
  · exact Segment.source_segmentsAfter [] chapter
  · intro earlier content later hsplit
    obtain ⟨first, inside, rfl, hraw⟩ :=
      Segment.rawAfterTag_segmentsAfter [] chapter earlier content later hsplit
    obtain ⟨name, hname⟩ := Option.isSome_iff_exists.1 hraw
    rw [rawName?_ofTag asciiOnly] at hname
    obtain ⟨hmem, attributes, htoken⟩ := exists_of_rawName? hname
    exact ⟨first, inside, name, attributes, rfl, htoken, hmem⟩

end ChapterLayout
