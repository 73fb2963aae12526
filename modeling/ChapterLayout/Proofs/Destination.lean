import ChapterLayout.Proofs.Flow.HeadingStart
import ChapterLayout.Proofs.Footnote

/-! # Where links and headings lead

A link to an anchor, and an entry of the table of contents, lead to a line of the chapter. Spreading
lines leaves their words where they are, so the first word behind an anchor or of a heading is found
on the line on which it was laid out:

* **`Chapter.showsWord_render`** — a chapter shows the words of its layout on the same lines;
* **`Chapter.render_target`** — how far from its anchor the first word of an element is;
* **`Chapter.render_heading`** — how far from the line of a heading its first word is. -/

namespace ChapterLayout

namespace Page

variable {page justified : Page} {maxWidth : Int} {threshold : Threshold}

/-- No heading is moved by spreading lines. -/
theorem headings_of_justify (hjustify : page.justify maxWidth threshold = .ok justified) :
    justified.headings = page.headings := by
  obtain ⟨lines, maps, -, rfl⟩ := exists_of_justify hjustify
  rfl

/-- A link target leads to the line of its anchor. -/
theorem resolveHref?_eq {href id : Text} (h : Href.anchorName? href = .ok (some id)) :
    page.resolveHref? href = .ok (page.anchor? id) := by
  rw [resolveHref?, h]
  rfl

end Page

namespace Chapter

variable {settings : Settings} {markup : Text} {rendering : Rendering} {name s word : Text}
  {attributes : List Attribute} {before content lead tail after : List Token} {ws : List Text}

/-! ## (1) Lines and words -/

/-- **A chapter shows a word** on the line on which it was laid out. -/
theorem showsWord_render {n : Nat} {start : Text} (h : render settings markup = .ok rendering)
    (hword : (Flow.run settings (Token.scan markup settings.asciiEntities)).page.ShowsWord n start
      word) : rendering.page.ShowsWord n start word := by
  obtain ⟨line, rest, hline, hwords⟩ := hword
  have hsame := congrArg (·[n]?) (render_words (p := Text.isFlowBlank) rfl h).1
  rw [List.getElem?_map, List.getElem?_map, hline] at hsame
  obtain ⟨shown, hshown, hcut⟩ := Option.map_eq_some_iff.1 hsame
  exact ⟨shown, rest, hshown, hcut.trans hwords⟩

/-- The headings of a chapter are those of its layout. -/
theorem headings_render (h : render settings markup = .ok rendering) :
    rendering.page.headings =
      (Flow.run settings (Token.scan markup settings.asciiEntities)).page.headings := by
  obtain ⟨page, hpage, hfate⟩ := exists_of_render h
  rw [hpage]
  show page.headings = _
  rcases hfate with rfl | hjustify
  · rfl
  · exact Page.headings_of_justify hjustify

/-! ## (2) Anchors -/

/-- **An anchor and its content.** Take the element of an anchor with a new name within a line,
whose content begins with a text whose first word is not glued to the word before it. A link to it
leads to the line that is being filled where its tag stands. Its first word is shown on that line,
or behind the lines of the start of a title if a class of the tag opens one, unless it does not fit
behind the words there and is shown on the next line. -/
theorem render_target {id : Text} (h : render settings markup = .ok rendering)
    (htokens : Token.scan markup settings.asciiEntities =
      before ++ .opening name attributes :: .text s :: after)
    (hname : TagRole.ofName name = .inline)
    (hid : Attribute.nonempty? attributes "id".toList = some id)
    (hnew : ∀ token ∈ before, token.anchorName? ≠ some id)
    (hplace : (Flow.feedAll {} settings before).TakesText)
    (hwords : Text.words Text.isFlowBlank s = word :: ws)
    (hfresh :
      let opened := (Flow.feedAll {} settings before).openTag settings name attributes
      opened.hasWords = true → (opened.glue && !Flow.startsBlank s) = false) :
    let flow := Flow.feedAll {} settings before
    let opened := flow.openTag settings name attributes
    let n := flow.lineIndex + flow.tagGap settings attributes
    rendering.page.anchor? id = some (flow.lineIndex : Int) ∧
      (∀ href, Href.anchorName? href = .ok (some id) →
        rendering.page.resolveHref? href = .ok (some (flow.lineIndex : Int))) ∧
      ∃ shown, opened.pendingMark ++ word <+: shown ∧
        (rendering.page.ShowsWord n (opened.beforeWord settings) shown ∨
          rendering.page.ShowsWord (n + 1) opened.continuation shown ∧ opened.hasWords = true ∧
            settings.maxWidth < (Text.width (opened.beforeWord settings ++ shown) : Int)) := by
  intro flow opened n
  obtain ⟨hanchor, hindex, shown, hprefix, hshown⟩ :=
    Flow.run_target htokens hname hid hnew hplace hwords hfresh
  -- Justification leaves the anchors as they are and shows the words where they were.
  have hkept : rendering.page.anchor? id = some (flow.lineIndex : Int) := by
    rw [Page.anchor?, (render_words (p := Text.isFlowBlank) rfl h).2]
    exact hanchor
  have hn : opened.lineIndex = n := hindex
  rw [hn] at hshown
  refine ⟨hkept, fun href hhref => ?_, shown, hprefix, ?_⟩
  · rw [Page.resolveHref?_eq hhref, hkept]
  · exact hshown.imp (showsWord_render h) (And.imp_left (showsWord_render h))

/-- The first word is put behind the words before it, and moves to the next line when the text of
the element in it is glued to it. -/
theorem render_target_moved :
    let settings : Settings := { maxWidth := 8 }
    let markup := "aa <a id=\"x\">bb<b>cccc</b></a>".toList
    let before : List Token := [.text "aa ".toList]
    let attributes : List Attribute := [⟨"id".toList, ['x']⟩]
    let after : List Token :=
      [.opening ['b'] [], .text "cccc".toList, .closing ['b'], .closing ['a']]
    let opened := (Flow.feedAll {} settings before).openTag settings ['a'] attributes
    (Token.scan markup settings.asciiEntities =
        before ++ .opening ['a'] attributes :: .text "bb".toList :: after ∧
      TagRole.ofName ['a'] = .inline ∧
      Attribute.nonempty? attributes "id".toList = some ['x'] ∧
      (∀ token ∈ before, token.anchorName? ≠ some ['x']) ∧
      (Flow.feedAll {} settings before).TakesText ∧
      Text.words Text.isFlowBlank "bb".toList = ["bb".toList] ∧
      (opened.hasWords = true → (opened.glue && !Flow.startsBlank "bb".toList) = false)) ∧
    ∃ rendering, render settings markup = .ok rendering ∧
      rendering.page.lines = ["aa".toList, "bbcccc".toList] ∧
      rendering.page.resolveHref? "#x".toList = .ok (some 0) ∧
      ∃ shown, "bb".toList <+: shown ∧
        (rendering.page.ShowsWord 0 "aa ".toList shown ∨ rendering.page.ShowsWord 1 [] shown ∧
          opened.hasWords = true ∧ 8 < (Text.width ("aa ".toList ++ shown) : Int)) := by
  intro settings markup before attributes after opened
  have htokens : Token.scan markup settings.asciiEntities =
      before ++ .opening ['a'] attributes :: .text "bb".toList :: after := by decide +kernel
  have hname : TagRole.ofName ['a'] = .inline := by decide
  have hid : Attribute.nonempty? attributes "id".toList = some ['x'] := by decide
  have hnew : ∀ token ∈ before, token.anchorName? ≠ some ['x'] := by decide
  have hplace : (Flow.feedAll {} settings before).TakesText :=
    ⟨by decide, by decide, by decide, by decide⟩
  have hwords : Text.words Text.isFlowBlank "bb".toList = ["bb".toList] := by decide
  have hfresh : opened.hasWords = true →
      (opened.glue && !Flow.startsBlank "bb".toList) = false := by decide
  refine ⟨⟨htokens, hname, hid, hnew, hplace, hwords, hfresh⟩, ?_⟩
  -- The lines show that the word moves, which the theorem leaves open.
  have hlines : (render settings markup).toOption.map (·.page.lines) =
      some ["aa".toList, "bbcccc".toList] := by decide +kernel
  cases hr : render settings markup with
  | error e => rw [hr] at hlines; cases hlines
  | ok rendering =>
    rw [hr] at hlines
    obtain ⟨-, hresolve, hshown⟩ := render_target hr htokens hname hid hnew hplace hwords hfresh
    exact ⟨rendering, rfl, Option.some.inj hlines, hresolve _ (by decide +kernel), hshown⟩

/-- A first word that does not fit on the line of its anchor. -/
theorem render_target_below :
    let settings : Settings := { maxWidth := 6 }
    let markup := "aaaa <a id=\"x\">bbbb</a>".toList
    Token.scan markup settings.asciiEntities =
        [.text "aaaa ".toList, .opening ['a'] [⟨"id".toList, ['x']⟩], .text "bbbb".toList,
          .closing ['a']] ∧
      ∃ rendering, render settings markup = .ok rendering ∧
        rendering.page.lines = ["aaaa".toList, "bbbb".toList] ∧
        rendering.page.ShowsWord 1 [] "bbbb".toList ∧
        rendering.page.resolveHref? "#x".toList = .ok (some 0) := by
  intro settings markup
  have hpage : (render settings markup).toOption.map
      (fun r => (r.page.lines, r.page.resolveHref? "#x".toList)) =
        some (["aaaa".toList, "bbbb".toList], .ok (some 0)) := by decide +kernel
  refine ⟨by decide +kernel, ?_⟩
  cases hr : render settings markup with
  | error e => rw [hr] at hpage; cases hpage
  | ok rendering =>
    rw [hr] at hpage
    obtain ⟨hlines, hresolve⟩ := Prod.mk.inj (Option.some.inj hpage)
    refine ⟨rendering, rfl, hlines, ⟨"bbbb".toList, [], ?_, by decide⟩, hresolve⟩
    rw [hlines]
    rfl

/-! ## (3) Headings -/

/-- **A heading and its text.** Take a heading that holds text with a word, and elements within a
line. The line that is recorded for it is the one that comes next where its tag stands. Its first
word is shown on that line, or on the one after it if a class of the heading, or of an element up to
its first word, opens a title and the line before was not ended yet. -/
theorem render_heading {level : Nat} (h : render settings markup = .ok rendering)
    (htokens : Token.scan markup settings.asciiEntities =
      before ++ .opening name attributes :: (content ++ .closing name :: after))
    (hcontent : content = lead ++ .text s :: tail)
    (hname : TagRole.ofName name = .heading level)
    (hplace : (Flow.feedAll {} settings before).TakesText) (hnested : Token.Nested content)
    (hphrase : ∀ token ∈ content, token.IsPhrase)
    (hlead : ∀ token ∈ lead, Text.words Text.isFlowBlank token.content = [])
    (hwords : Text.words Text.isFlowBlank s = word :: ws)
    (hshown : Text.squeeze (Token.contents content) ≠ []) :
    let flow := Flow.feedAll {} settings before
    let n := flow.newLine.lineIndex
    (∃ rest, rendering.page.headings =
      flow.page.headings ++ ⟨level, Text.squeeze (Token.contents content), n⟩ :: rest) ∧
    ∃ shown, flow.pendingMark ++ word <+: shown ∧ rendering.page.ShowsWord
      (n + flow.headingGap settings (.opening name attributes :: lead)) (flow.indent settings)
      shown := by
  intro flow n
  obtain ⟨hrecorded, shown, hprefix, hword⟩ :=
    Flow.run_heading htokens hcontent hname hplace hnested hphrase hlead hwords hshown
  refine ⟨?_, shown, hprefix, showsWord_render h hword⟩
  rw [headings_render h]
  exact hrecorded

/-- A heading behind the marker of an item, whose title is opened by an element around its first
word. -/
theorem render_heading_item :
    let settings : Settings := { classStyles := [("t".toList, Group.title)] }
    let markup := ("<ul><li><h1> <i></i><span class=\"t\">T u</span> v</h1></ul>").toList
    let before : List Token := [.opening "ul".toList [], .opening "li".toList []]
    let title : Token := .opening "span".toList [⟨"class".toList, ['t']⟩]
    let lead : List Token := [.text [' '], .opening ['i'] [], .closing ['i'], title]
    let tail : List Token := [.closing "span".toList, .text " v".toList]
    let content := lead ++ .text "T u".toList :: tail
    (Token.scan markup settings.asciiEntities = before ++ .opening "h1".toList [] ::
        (content ++ [.closing "h1".toList, .closing "ul".toList]) ∧
      TagRole.ofName "h1".toList = .heading 1 ∧
      (Flow.feedAll {} settings before).TakesText ∧ Token.Nested content ∧
      (∀ token ∈ content, token.IsPhrase) ∧
      (∀ token ∈ lead, Text.words Text.isFlowBlank token.content = []) ∧
      Text.words Text.isFlowBlank "T u".toList = [['T'], ['u']] ∧
      Text.squeeze (Token.contents content) ≠ []) ∧
    ∃ rendering, render settings markup = .ok rendering ∧
      rendering.page.lines = ["  • ".toList, [], "  T u".toList, [], "  v".toList] ∧
      (∃ rest, rendering.page.headings = ⟨1, "T u v".toList, 1⟩ :: rest) ∧
      ∃ shown, ['T'] <+: shown ∧ rendering.page.ShowsWord 2 "  ".toList shown := by
  intro settings markup before title lead tail content
  have htokens : Token.scan markup settings.asciiEntities = before ++ .opening "h1".toList [] ::
      (content ++ [.closing "h1".toList, .closing "ul".toList]) := by decide +kernel
  have hname : TagRole.ofName "h1".toList = .heading 1 := by decide
  have hplace : (Flow.feedAll {} settings before).TakesText :=
    ⟨by decide, by decide, by decide, by decide⟩
  have hnested : Token.Nested content :=
    .text _ (.element _ _ .nil (.element _ _ (.text _ .nil) (.text _ .nil)))
  have hphrase : ∀ token ∈ content, token.IsPhrase := by decide
  have hlead : ∀ token ∈ lead, Text.words Text.isFlowBlank token.content = [] := by decide
  have hwords : Text.words Text.isFlowBlank "T u".toList = [['T'], ['u']] := by decide
  have hshown : Text.squeeze (Token.contents content) ≠ [] := by decide
  refine ⟨⟨htokens, hname, hplace, hnested, hphrase, hlead, hwords, hshown⟩, ?_⟩
  have hlines : (render settings markup).toOption.map (·.page.lines) =
      some ["  • ".toList, [], "  T u".toList, [], "  v".toList] := by decide +kernel
  cases hr : render settings markup with
  | error e => rw [hr] at hlines; cases hlines
  | ok rendering =>
    rw [hr] at hlines
    obtain ⟨hheadings, hword⟩ :=
      render_heading hr htokens rfl hname hplace hnested hphrase hlead hwords hshown
    exact ⟨rendering, rfl, Option.some.inj hlines, hheadings, hword⟩

/-- A heading that a class makes a title, behind text: a blank line stands at the line of the
heading, and its text behind it. -/
theorem render_heading_title :
    let settings : Settings := { classStyles := [("t".toList, Group.title)] }
    let markup := "a<h1 class=\"t\">T</h1>".toList
    Token.scan markup settings.asciiEntities =
        [.text ['a'], .opening "h1".toList [⟨"class".toList, ['t']⟩], .text ['T'],
          .closing "h1".toList] ∧
      ∃ rendering, render settings markup = .ok rendering ∧
        rendering.page.lines = [['a'], [], ['T']] ∧ rendering.page.ShowsWord 2 [] ['T'] ∧
        rendering.page.headings = [⟨1, ['T'], 1⟩] := by
  intro settings markup
  have hpage : (render settings markup).toOption.map (fun r => (r.page.lines, r.page.headings)) =
      some ([['a'], [], ['T']], [⟨1, ['T'], 1⟩]) := by decide +kernel
  refine ⟨by decide +kernel, ?_⟩
  cases hr : render settings markup with
  | error e => rw [hr] at hpage; cases hpage
  | ok rendering =>
    rw [hr] at hpage
    obtain ⟨hlines, hheadings⟩ := Prod.mk.inj (Option.some.inj hpage)
    refine ⟨rendering, rfl, hlines, ⟨['T'], [], ?_, by decide⟩, hheadings⟩
    rw [hlines]
    rfl

end Chapter

end ChapterLayout
