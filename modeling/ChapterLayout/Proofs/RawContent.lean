import ChapterLayout.Proofs.Flow.Raw

/-! # Raw elements of a chapter

What the content of a script or a style sheet does to a chapter, from its markup to its page:

* **`Token.scan_rawElement`** — the element is closed among the tokens if its closing tag is written
  plainly, and then the text behind it is laid out like the text before it;
* **`Chapter.render_rawContent`** — the content is never laid out, unless the element stands within
  a title in the head of the document. -/

namespace ChapterLayout

/-! ## (1) Raw elements are closed -/

namespace Token

/-- **Raw elements are closed among the tokens.** Behind the opening tag come the content, as at
most one text, and the tokens of the text from the closing tag that was found, or the end. The tag
that was found is read as the closing tag if and only if no blank stands before its name and the
name is written in letters of the Latin alphabet, and as many raw elements are open behind the
closing tag as were open before the element. -/
theorem scan_rawElement {markup name : Text} {asciiOnly : Bool} {before after : List Token}
    {attributes : List Attribute} (hname : name ∈ rawNames)
    (h : scan markup asciiOnly = before ++ .opening name attributes :: after) :
    ∃ content rest, content ++ rest <:+ markup ∧
      after = ofText content ++ scan rest asciiOnly ∧
      (rest = [] ∧ after = ofText content ∨
        Segment.closesElement name rest = true ∧
          ((∃ later, scan rest asciiOnly = .closing name :: later) ↔
            ((rest.drop 2).take name.length).all Text.isAsciiLetter = true)) ∧
      ∀ (settings : Settings) (flow : Flow),
        (flow.feedAll settings (.opening name attributes ::
          (ofText content ++ [.closing name]))).context.rawDepth = flow.context.rawDepth := by
  obtain ⟨content, rest, hsuffix, hafter, hend⟩ := exists_of_scan hname h
  refine ⟨content, rest, hsuffix, hafter, ?_, fun settings flow =>
    Flow.rawDepth_closed hname flow content⟩
  rcases hend with rfl | hcloses
  · left
    refine ⟨rfl, ?_⟩
    have hnone : scan [] asciiOnly = [] := by
      rw [scan, segments, segmentsAfter]
      rfl
    rw [hafter, hnone, List.append_nil]
  · exact .inr ⟨hcloses, scan_eq_closing_iff hname hcloses asciiOnly⟩

/-- Capital letters and blanks behind the name do not matter. -/
theorem scan_rawElement_capitals :
    let markup := "<i><script>1 < 2</SCRIPT >a".toList
    let after : List Token := [.text "1 < 2".toList, .closing "script".toList, .text "a".toList]
    "script".toList ∈ rawNames ∧
      scan markup = [.opening "i".toList []] ++ .opening "script".toList [] :: after ∧
      ∃ content rest, content ++ rest <:+ markup ∧ after = ofText content ++ scan rest := by
  intro markup after
  have hname : "script".toList ∈ rawNames := by decide
  have hscan : scan markup = [.opening "i".toList []] ++ .opening "script".toList [] :: after := by
    decide +kernel
  obtain ⟨content, rest, hsuffix, hafter, -⟩ := scan_rawElement hname hscan
  exact ⟨hname, hscan, content, rest, hsuffix, hafter⟩

/-- A blank before the name: the closing tag that is found is read as text, the element stays open,
and the text behind it is dropped. -/
theorem scan_rawElement_blank :
    let markup := "<script>x</ script>y".toList
    let after : List Token := [.text "x".toList, .text "</ script>y".toList]
    scan markup = [] ++ .opening "script".toList [] :: after ∧
      Segment.splitRaw "script".toList "x</ script>y".toList =
        ("x".toList, "</ script>y".toList) ∧
      (¬∃ content, after = ofText content ∨
        ∃ later, after = ofText content ++ .closing "script".toList :: later) ∧
      (Flow.feedAll {} {} (scan markup)).context.rawDepth = 1 ∧
      (Flow.run {} (scan markup)).page.lines = [] := by
  intro markup after
  refine ⟨by decide +kernel, by decide +kernel, ?_, by decide +kernel, by decide +kernel⟩
  rintro ⟨content, h | ⟨later, h⟩⟩
  all_goals
    unfold ofText at h
    split at h <;> simp [after] at h

end Token

/-! ## (2) Raw content is not laid out -/

namespace Segment

/-- Raw content among the segments of a chapter belongs to the tag before it and ends where the
element does. -/
theorem exists_of_follow_raw {segment : Segment} {s content : Text} {segs : List Segment}
    (h : segment.follow s = .raw content :: segs) :
    ∃ name rest, segment.rawName? = some name ∧ segs = segmentsAfter [] rest ∧
      (rest = [] ∨ closesElement name rest = true) := by
  unfold follow splitContent at h
  cases hname : segment.rawName? with
  | none =>
    rw [hname] at h
    exact absurd h (segmentsAfter_ne_raw [] s content segs)
  | some name =>
    rw [hname] at h
    refine ⟨name, (splitRaw name s).2, rfl, ?_, (splitRaw_spec name s).2⟩
    by_cases hempty : (splitRaw name s).1 = []
    · rw [unlessEmpty, if_pos (List.isEmpty_iff.2 hempty)] at h
      exact absurd h (segmentsAfter_ne_raw [] _ content segs)
    · rw [unlessEmpty, if_neg (by simpa using hempty)] at h
      exact (List.cons.inj h).2.symm

end Segment

namespace Chapter

/-- Lays out the tokens of a chapter. -/
def renderTokens (settings : Settings) (tokens : List Token) : Except LimitError Rendering := do
  let flow ← Flow.run? settings tokens
  let page := (← justify settings flow.page).clamp
  return ⟨page, flow.notices ++ [laidOut settings page]⟩

/-- A chapter is laid out by its tokens. -/
theorem render_eq_renderTokens (settings : Settings) (markup : Text) :
    render settings markup = renderTokens settings (Token.scan markup settings.asciiEntities) := rfl

/-- **Raw content is not laid out.** Where a tag is followed by raw content, the chapter is laid out
alike with any other content in its place, unless the tag stands within a title in the head of the
document. Leaving the content out of the markup does not change the chapter either, if the quotes of
all tags up to there are closed. -/
theorem render_rawContent {settings : Settings} {markup inside content : Text}
    {segs segs' : List Segment}
    (h : segments markup = segs ++ .tag inside :: .raw content :: segs')
    (hplace : let context := (Flow.feedAll {} settings
        (segs.flatMap (Segment.tokens settings.asciiEntities))).context
      (context.inHead && context.inTitle) = false) :
    (∀ content', renderTokens settings ((segs ++ .tag inside :: .raw content' :: segs').flatMap
        (Segment.tokens settings.asciiEntities)) = render settings markup) ∧
      ((∀ segment ∈ segs ++ [Segment.tag inside], segment.IsBalanced) →
        render settings ((segs ++ .tag inside :: segs').flatMap Segment.source) =
          render settings markup) := by
  obtain ⟨start, rest, hmarkup, hcut, hfollow⟩ := Segment.cut_of_segmentsAfter h
  obtain ⟨name, rest', hraw, rfl, hend⟩ := Segment.exists_of_follow_raw hfollow.symm
  obtain ⟨hname, attributes, htag⟩ := Token.exists_of_rawName?
    ((Token.rawName?_ofTag settings.asciiEntities inside).symm.trans hraw)
  have htokens : ∀ segs'' : List Segment, (segs ++ Segment.tag inside :: segs'').flatMap
      (Segment.tokens settings.asciiEntities) =
        segs.flatMap (Segment.tokens settings.asciiEntities) ++ .opening name attributes ::
          segs''.flatMap (Segment.tokens settings.asciiEntities) := by
    intro segs''
    rw [List.flatMap_append, List.flatMap_cons]
    show _ ++ ([Token.ofTag settings.asciiEntities inside] ++ _) = _
    rw [htag, List.singleton_append]
  -- With any content the chapter is laid out as it is without content.
  have hcontent : ∀ content', renderTokens settings
      ((segs ++ Segment.tag inside :: Segment.raw content' :: segmentsAfter [] rest').flatMap
        (Segment.tokens settings.asciiEntities)) =
      renderTokens settings ((segs ++ Segment.tag inside :: segmentsAfter [] rest').flatMap
        (Segment.tokens settings.asciiEntities)) := by
    intro content'
    have hrun := Flow.run?_rawText hname hplace attributes content'
      ((segmentsAfter [] rest').flatMap (Segment.tokens settings.asciiEntities))
    rw [htokens, htokens]
    unfold renderTokens
    rw [← hrun]
    rfl
  have hrender : render settings markup = renderTokens settings
      ((segs ++ Segment.tag inside :: segmentsAfter [] rest').flatMap
        (Segment.tokens settings.asciiEntities)) := by
    rw [render_eq_renderTokens, Token.scan, h]
    exact hcontent content
  refine ⟨fun content' => (hcontent content').trans hrender.symm, fun hbalanced => ?_⟩
  have hsource : (segs ++ Segment.tag inside :: segmentsAfter [] rest').flatMap Segment.source =
      start ++ rest' := by
    have hstart := hcut.source
    rw [List.reverse_nil, List.nil_append] at hstart
    rw [← hstart, ← List.singleton_append, ← List.append_assoc, List.flatMap_append,
      Segment.source_segmentsAfter]
    rfl
  have hsegments : segments (start ++ rest') =
      segs ++ Segment.tag inside :: segmentsAfter [] rest' := by
    rw [segments, (hcut.replace hbalanced rest').segmentsAfter, Segment.follow,
      Segment.splitContent, hraw]
    show _ ++ Segment.tag inside :: (Segment.unlessEmpty _ (Segment.splitRaw name rest').1 ++
      segmentsAfter [] (Segment.splitRaw name rest').2) = _
    rw [Segment.splitRaw_of_closes hend]
    rfl
  rw [hsource, hrender, render_eq_renderTokens, Token.scan, hsegments]

/-- A style sheet in a heading: left out, with its tags as they are. -/
theorem render_rawContent_heading :
    let markup := "<h1>T<style>a > b</style>U</h1>".toList
    let segs : List Segment := [.tag "h1".toList, .text "T".toList]
    let segs' : List Segment := [.tag "/style".toList, .text "U".toList, .tag "/h1".toList]
    segments markup = segs ++ .tag "style".toList :: .raw "a > b".toList :: segs' ∧
      (segs ++ .tag "style".toList :: segs').flatMap Segment.source =
        "<h1>T<style></style>U</h1>".toList ∧
      render {} "<h1>T<style></style>U</h1>".toList = render {} markup ∧
      (render {} markup).toOption.map (·.page.lines) = some ["TU".toList] := by
  intro markup segs segs'
  have hsegments : segments markup =
      segs ++ .tag "style".toList :: .raw "a > b".toList :: segs' := by decide +kernel
  have hsource : (segs ++ .tag "style".toList :: segs').flatMap Segment.source =
      "<h1>T<style></style>U</h1>".toList := by decide
  have hbalanced : ∀ segment ∈ segs ++ [Segment.tag "style".toList], segment.IsBalanced := by
    refine List.forall_mem_cons.2 ⟨⟨[], rfl⟩, List.forall_mem_cons.2 ⟨trivial, ?_⟩⟩
    exact List.forall_mem_singleton.2 ⟨[], rfl⟩
  have hplace : ((Flow.feedAll {} {} (segs.flatMap (Segment.tokens false))).context.inHead &&
      (Flow.feedAll {} {} (segs.flatMap (Segment.tokens false))).context.inTitle) = false := by
    decide +kernel
  have hrender : render {} ((segs ++ .tag "style".toList :: segs').flatMap Segment.source) =
      render {} markup := (render_rawContent hsegments hplace).2 hbalanced
  rw [hsource] at hrender
  exact ⟨hsegments, hsource, hrender, by decide +kernel⟩

/-- A script within a title in the head: its content becomes part of the title. -/
theorem render_rawContent_headTitle :
    (render {} "<head><title>A<script>b</script></title></head>".toList).toOption.map
        (fun r => (r.page.lines, r.page.highlights)) =
      some (["Ab".toList], [⟨0, 0, 2, Group.title⟩]) ∧
    (render {} "<head><title>A<script></script></title></head>".toList).toOption.map
        (fun r => (r.page.lines, r.page.highlights)) =
      some (["A".toList], [⟨0, 0, 1, Group.title⟩]) := by
  constructor
  · decide +kernel
  · decide +kernel

end Chapter

end ChapterLayout
