import ChapterLayout.Navigation.Lookup
import ChapterLayout.Proofs.Flow.Paragraph
import ChapterLayout.Proofs.Lists
import ChapterLayout.Proofs.Reflow
import ChapterLayout.Proofs.Text.LineWords

/-! # Footnotes are shown in full

The footnote at an anchor is read off the lines of the page: the first lines from the anchor on that
are not blank. What it holds is told by the words of the lines alone, and spreading lines leaves the
words alone:

* **`Page.words_footnote`** — the footnote holds the words of the lines up to the next blank one;
* **`Chapter.render_words`** — the lines of a chapter have the words they were laid out with;
* **`Chapter.render_footnote`** — so the footnote at the anchor of a paragraph holds its text. -/

namespace ChapterLayout

variable {p : Char → Bool} {maxWidth : Int}

/-! ## (1) The words of texts -/

/-- Texts that are spaced alike have the same words. -/
theorem Text.SpacedAlike.words_eq {s t : Text} (hspace : p ' ' = true) (h : SpacedAlike s t) :
    words p s = words p t := by
  rw [← words_collapseBy hspace s, h.collapseBy_eq hspace, words_collapseBy hspace]

/-- Spreading the lines of a page leaves their words alone. -/
theorem Page.LinesSpread.words_eq {page : Page} {lines : List Line}
    {maps : List (Int × ColumnMap)} (hspace : p ' ' = true)
    (h : page.LinesSpread maxWidth lines maps) (htrimmed : page.LinesTrimmed) :
    lines.map (Text.words p) = page.lines.map (Text.words p) := by
  rw [Lists.map_eq_map_iff]
  exact (h.spacedAlike htrimmed).imp fun _ _ halike => halike.words_eq hspace

/-- A text without other blanks has the same words whichever blanks it is cut at. -/
theorem Text.words_isFlowBlank {s : Text}
    (h : ∀ c ∈ s, isBlank c = true → isFlowBlank c = true) :
    words isFlowBlank s = words isBlank s := by
  refine words_congr fun c hc => ?_
  cases hblank : isBlank c with
  | true => exact h c hc hblank
  | false => exact isFlowBlank_of_letter hblank

/-! ## (2) Reading a footnote -/

namespace Page

variable {page : Page} {id : Text} {maxLines : Int}

/-- A line is blank if it has no words. -/
theorem isAllBlank_eq (line : Line) :
    Text.isAllBlank line = (Text.words Text.isBlank line).isEmpty := by
  rw [Bool.eq_iff_iff, List.isEmpty_iff, Text.words_eq_nil_iff, Text.isAllBlank, List.all_eq_true]

/-- **A footnote** holds the words of the lines from its anchor to the next blank line. -/
theorem words_footnote {above block rest : List (List Text)}
    (hanchor : page.anchor? id = some (above.length : Int))
    (hlines : page.lines.map (Text.words Text.isBlank) = above ++ (block ++ rest))
    (hne : block ≠ []) (hblock : [] ∉ block)
    (hrest : ∀ words, rest.head? = some words → words = [])
    (hmax : (block.length : Int) ≤ maxLines) :
    Text.words Text.isBlank ([' '].intercalate (page.footnote id maxLines)) = block.flatten := by
  obtain ⟨n, rfl⟩ : ∃ n : Nat, maxLines = n := Int.eq_ofNat_of_zero_le (by omega)
  have hcut := Lists.takeWhile_block above hne hblock hrest (Int.ofNat_le.1 hmax)
  rw [← hlines, ← List.map_take, ← List.map_drop, List.dropWhile_map, List.takeWhile_map] at hcut
  have hblank : Text.isAllBlank = (·.isEmpty) ∘ Text.words Text.isBlank := funext isAllBlank_eq
  rw [Text.words_joined rfl, footnote, hanchor]
  dsimp only
  rw [← Int.natCast_add, Slice.cut_natCast, List.flatMap_map, ← hcut, List.flatMap_def, hblank]
  simp only [Text.words_trim]
  rfl

end Page

/-! ## (3) Chapters -/

namespace Chapter

variable {settings : Settings} {markup : Text} {rendering : Rendering}

/-- **The lines of a chapter** have the words they were laid out with, and its anchors stay. -/
theorem render_words (hspace : p ' ' = true) (h : render settings markup = .ok rendering) :
    let flow := Flow.run settings (Token.scan markup settings.asciiEntities)
    rendering.page.lines.map (Text.words p) = flow.page.lines.map (Text.words p) ∧
      rendering.page.anchors = flow.page.anchors := by
  intro flow
  obtain ⟨page, hpage, hfate⟩ := exists_of_render h
  rw [hpage]
  rcases hfate with rfl | hjustify
  · exact ⟨rfl, rfl⟩
  · obtain ⟨lines, maps, hspread, rfl⟩ := Page.exists_of_justify hjustify
    exact ⟨hspread.words_eq hspace (Flow.spreadable_run settings _).lines, rfl⟩

/-- **Footnotes are shown in full.** Take a paragraph with an anchor of a new name that stands
outside every block and holds nothing but text and elements within a line. If its lines are not more
than those looked at, the footnote at its anchor is its text, up to blanks. It makes no difference
what comes before and behind it, and whether its lines are spread. -/
theorem render_footnote {before content after : List Token} {attributes : List Attribute}
    {id : Text} {maxLines : Int} (h : render settings markup = .ok rendering)
    (htokens : Token.scan markup settings.asciiEntities =
      before ++ .opening "p".toList attributes :: (content ++ .closing "p".toList :: after))
    (hid : Attribute.nonempty? attributes "id".toList = some id)
    (hnew : ∀ token ∈ before, token.anchorName? ≠ some id)
    (hcode : ∀ token ∈ before, token.role ≠ .code)
    (hempty : (Flow.feedAll {} settings before).context.isEmpty = true)
    (htitle : Flow.opensTitle settings attributes = false)
    (hcontent : ∀ token ∈ content, token.IsInline settings)
    (hwords : Text.words Text.isFlowBlank (Token.contents content) ≠ [])
    (hblank : ∀ c ∈ Token.contents content, Text.isBlank c = true → Text.isFlowBlank c = true)
    (hlines :
      let opened := Flow.feedAll {} settings (before ++ [.opening "p".toList attributes])
      (opened.height (opened.feedAll settings content) : Int) ≤ maxLines) :
    Text.squeeze ([' '].intercalate (rendering.page.footnote id maxLines)) =
      Text.squeeze (Token.contents content) := by
  obtain ⟨hheight, hanchor, rest, hpage, hrest⟩ :=
    Flow.run_paragraph htokens hnew hcode hempty hid htitle hcontent hwords
  obtain ⟨hsame, hanchors⟩ := render_words (p := Text.isBlank) rfl h
  -- The words that are laid out are the words by which texts are compared.
  have hcut := Text.words_isFlowBlank hblank
  rw [hcut] at hheight hpage hwords
  have hletters : ∀ w ∈ Text.words Text.isBlank (Token.contents content),
      Text.words Text.isBlank w = [w] := fun w hw =>
    Text.words_of_letters (Text.ne_nil_of_mem_words hw) fun c hc => Text.letter_of_mem_words hw hc
  rw [hpage, List.map_append, List.map_append, List.append_assoc] at hsame
  have hfootnote : Text.words Text.isBlank
      ([' '].intercalate (rendering.page.footnote id maxLines)) =
        Text.words Text.isBlank (Token.contents content) := by
    rw [← Text.flatMap_words_wrap rfl hletters, List.flatMap_def]
    refine Page.words_footnote ?_ hsame ?_ ?_ ?_ ?_
    · rw [List.length_map, Page.anchor?, hanchors]
      exact hanchor
    · rw [ne_eq, List.map_eq_nil_iff]
      exact Text.wrap_ne_nil hwords
    · intro hmem
      obtain ⟨line, hline, hnil⟩ := List.mem_map.1 hmem
      exact Text.words_ne_nil_of_mem_wrap rfl hletters hline hnil
    · intro words hhead
      rw [List.head?_map] at hhead
      obtain ⟨line, hline, rfl⟩ := Option.map_eq_some_iff.1 hhead
      rw [hrest line hline]
      rfl
    · rw [List.length_map, hheight]
      exact hlines
  rw [Text.squeeze, Text.squeeze, hfootnote]

/-- A note whose words are cut by tags is wrapped into two lines, the first of which is spread. -/
theorem render_footnote_spread :
    let settings : Settings := { maxWidth := 12, justify := true }
    let markup := "<h1>Notes</h1>x<p id=\"n\">aa <b>bb c</b>c dd\n ee</p>y".toList
    let before : List Token :=
      [.opening "h1".toList [], .text "Notes".toList, .closing "h1".toList, .text ['x']]
    let attributes : List Attribute := [⟨"id".toList, ['n']⟩]
    let content : List Token :=
      [.text "aa ".toList, .opening ['b'] [], .text "bb c".toList, .closing ['b'],
        .text "c dd\n ee".toList]
    let opened := Flow.feedAll {} settings (before ++ [.opening "p".toList attributes])
    (Token.scan markup settings.asciiEntities =
        before ++ .opening "p".toList attributes ::
          (content ++ [.closing "p".toList, .text ['y']]) ∧
      Attribute.nonempty? attributes "id".toList = some ['n'] ∧
      (∀ token ∈ before, token.anchorName? ≠ some ['n'] ∧ token.role ≠ .code) ∧
      (Flow.feedAll {} settings before).context.isEmpty = true ∧
      Flow.opensTitle settings attributes = false ∧
      (∀ token ∈ content, token.IsInline settings) ∧
      Text.words Text.isFlowBlank (Token.contents content) ≠ [] ∧
      (∀ c ∈ Token.contents content, Text.isBlank c = true → Text.isFlowBlank c = true) ∧
      (opened.height (opened.feedAll settings content) : Int) ≤ 2) ∧
    ∃ rendering, render settings markup = .ok rendering ∧
      rendering.page.footnote ['n'] 2 = ["aa  bb cc dd".toList, "ee".toList] ∧
      Text.squeeze ([' '].intercalate (rendering.page.footnote ['n'] 2)) =
        Text.squeeze "aa bb cc dd\n ee".toList := by
  intro settings markup before attributes content opened
  have htokens : Token.scan markup settings.asciiEntities =
      before ++ .opening "p".toList attributes ::
        (content ++ [.closing "p".toList, .text ['y']]) := by decide +kernel
  have hid : Attribute.nonempty? attributes "id".toList = some ['n'] := by decide
  have hbefore : ∀ token ∈ before, token.anchorName? ≠ some ['n'] ∧ token.role ≠ .code := by
    decide
  have hempty : (Flow.feedAll {} settings before).context.isEmpty = true := by decide
  have htitle : Flow.opensTitle settings attributes = false := by decide
  have hcontent : ∀ token ∈ content, token.IsInline settings := by decide
  have hwords : Text.words Text.isFlowBlank (Token.contents content) ≠ [] := by decide
  have hblank : ∀ c ∈ Token.contents content,
      Text.isBlank c = true → Text.isFlowBlank c = true := by
    have hall : (Token.contents content).all (fun c => !Text.isBlank c || Text.isFlowBlank c) =
        true := by decide
    intro c hc hblank
    simpa [hblank] using List.all_eq_true.1 hall c hc
  have hlines : (opened.height (opened.feedAll settings content) : Int) ≤ 2 := by decide +kernel
  refine ⟨⟨htokens, hid, hbefore, hempty, htitle, hcontent, hwords, hblank, hlines⟩, ?_⟩
  have hpage : (render settings markup).toOption.map (·.page.footnote ['n'] 2) =
      some ["aa  bb cc dd".toList, "ee".toList] := by decide +kernel
  cases hr : render settings markup with
  | error e => rw [hr] at hpage; cases hpage
  | ok rendering =>
    rw [hr] at hpage
    refine ⟨rendering, rfl, Option.some.inj hpage, ?_⟩
    exact render_footnote hr htokens hid (fun token ht => (hbefore token ht).1)
      (fun token ht => (hbefore token ht).2) hempty htitle hcontent hwords hblank hlines

end Chapter

end ChapterLayout
