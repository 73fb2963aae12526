import ChapterLayout.Navigation.Lookup
import ChapterLayout.Proofs.Chapter
import ChapterLayout.Proofs.Flow.Order

/-! # The order of the records of a chapter

The records of a layout come in the order of its lines. They still do when the lines are spread and
the records are moved into their lines, so a lookup may stop at the first heading beyond a line:

* **`Page.InOrder.clamp`** — moving records into their lines keeps their order;
* **`Page.InOrder.justify`** — and so does moving them along with their words;
* **`Page.headingAt?_eq`** — the heading for a line is the last one that is not beyond it;
* **`Chapter.render_inOrder`** — all this holds of every chapter. -/

namespace ChapterLayout

section Records

variable {ρ : Type} [Positioned ρ] [LawfulPositioned ρ] {lines : List Line} {records : List ρ}
  {a b a' b' : ρ} {page : Page} {maxWidth : Int} {maps : List (Int × ColumnMap)}

/-! ## (1) Records that are moved into their lines -/

/-- Two records that are moved into their lines keep their order. -/
theorem Precedes.clamp (h : Precedes a b) (ha : clampRecord? lines a = some a')
    (hb : clampRecord? lines b = some b') : Precedes a' b' := by
  obtain ⟨line, hline, rfl⟩ := Option.map_eq_some_iff.1 ha
  obtain ⟨line', hline', rfl⟩ := Option.map_eq_some_iff.1 hb
  rw [Precedes, line_withColumns, line_withColumns, startCol_withColumns, startCol_withColumns]
  apply h.imp_right
  rintro ⟨hsame, hle⟩
  refine ⟨hsame, ?_⟩
  rw [hsame, hline'] at hline
  obtain rfl := Option.some.inj hline
  unfold clampColumn
  omega

/-- Records that are clamped to their lines are still in order. -/
theorem InOrder.clampRecords (h : InOrder records) : InOrder (clampRecords lines records) :=
  h.filterMap _ fun _ _ hab _ ha _ hb => hab.clamp ha hb

/-- **Records that are moved into their lines** come in the same order. -/
theorem Page.InOrder.clamp (h : page.InOrder) : page.clamp.InOrder := by
  refine ⟨h.headings, ?_, InOrder.clampRecords h.links⟩
  refine h.images.filterMap _ fun image image' hlt moved hmoved moved' hmoved' => ?_
  have hline : moved.line = image.line := line_of_clampRecord? hmoved
  have hline' : moved'.line = image'.line := line_of_clampRecord? hmoved'
  rw [hline, hline']
  exact hlt

/-! ## (2) Records that move along with their words -/

/-- **Two records on words** keep their order when lines are spread. -/
theorem Page.LinesSpread.precedes (h : page.LinesSpread maxWidth lines maps)
    (htrimmed : page.LinesTrimmed) (ha : page.CanFollow a) (hb : page.CanFollow b)
    (hab : Precedes a b) : Precedes (moveRecord maps a) (moveRecord maps b) := by
  rw [Precedes, line_moveRecord, line_moveRecord]
  apply hab.imp_right
  rintro ⟨hsame, hle⟩
  refine ⟨hsame, ?_⟩
  unfold moveRecord
  rw [← hsame]
  cases hmap : maps.lookup (Positioned.line a) with
  | none => exact hle
  | some map =>
    -- The line was spread, so it is not exempt and both records stand on words.
    obtain ⟨n, hn, hlt⟩ := h.key _ map hmap
    have hline := List.getElem?_eq_getElem hlt
    obtain ⟨new, -, hfate⟩ := h.line n _ hline
    rw [← hn, hmap] at hfate
    cases hfate with
    | spread hexempt hspread =>
      rw [hn] at hexempt
      have hwords := (ha n _ hn hline).resolve_left hexempt
      have hwords' := (hb n _ (hsame ▸ hn) hline).resolve_left hexempt
      have hend := (htrimmed n _ hline).resolve_left hexempt
      dsimp only
      rw [ColumnMap.move, ColumnMap.move, startCol_withColumns, startCol_withColumns]
      exact forward_le_of_onWords hwords hwords' hend hspread hle

/-- **The records of a page** stay in order when its lines are spread. -/
theorem Page.InOrder.justify {justified : Page} {threshold : Threshold} (h : page.InOrder)
    (hspreadable : page.Spreadable) (hjustify : page.justify maxWidth threshold = .ok justified) :
    justified.InOrder := by
  obtain ⟨lines, maps, hlines, rfl⟩ := exists_of_justify hjustify
  refine ⟨h.headings, ?_, ?_⟩
  · apply List.pairwise_map.2
    refine h.images.imp fun {image image'} hlt => ?_
    have hline : (moveRecord maps image).line = image.line := line_moveRecord maps image
    have hline' : (moveRecord maps image').line = image'.line := line_moveRecord maps image'
    rw [hline, hline']
    exact hlt
  · apply List.pairwise_map.2
    refine h.links.imp_of_mem fun {link link'} hlink hlink' hab => ?_
    exact hlines.precedes hspreadable.lines (hspreadable.links link hlink)
      (hspreadable.links link' hlink') hab

end Records

/-! ## (3) Headings -/

namespace Page

/-- Among headings in order, those up to the first one beyond a line are those not beyond it. -/
theorem takeWhile_headings {headings : List Heading}
    (h : headings.Pairwise fun a b => a.line ≤ b.line) (n : Int) :
    headings.takeWhile (·.line ≤ n) = headings.filter (·.line ≤ n) := by
  induction headings with
  | nil => rfl
  | cons heading headings ih =>
    obtain ⟨hle, htail⟩ := List.pairwise_cons.1 h
    by_cases hn : heading.line ≤ n
    · rw [List.takeWhile_cons_of_pos (by simpa using hn),
        List.filter_cons_of_pos (by simpa using hn), ih htail]
    · -- All later headings are beyond the line too.
      have hlater : ∀ later ∈ headings, ¬later.line ≤ n := by
        intro later hlater
        have hfirst := hle later hlater
        omega
      rw [List.takeWhile_cons_of_neg (by simpa using hn),
        List.filter_cons_of_neg (by simpa using hn), eq_comm, List.filter_eq_nil_iff]
      intro later hmem
      simpa using hlater later hmem

/-- **The heading for a line** is the last of all that are not beyond it. -/
theorem InOrder.headingAt?_eq {page : Page} (h : page.InOrder) (n : Int) :
    page.headingAt? n = (page.headings.filter (·.line ≤ n)).getLast? := by
  rw [headingAt?, takeWhile_headings h.headings]

end Page

namespace Chapter

variable {settings : Settings} {markup : Text} {rendering : Rendering}

/-! ## (4) Chapters -/

/-- **The records of a chapter come in the order of its lines,** whether its lines are spread or
not: the headings on lines that never decrease, the images on lines that increase, and the links by
line and column. So the heading for a line is the last of all headings that are not beyond it. -/
theorem render_inOrder (h : render settings markup = .ok rendering) :
    rendering.page.InOrder ∧ ∀ n : Int, rendering.page.headingAt? n =
      (rendering.page.headings.filter (·.line ≤ n)).getLast? := by
  obtain ⟨page, hclamp, hpage⟩ := exists_of_render h
  have hrun := Flow.run_inOrder settings (Token.scan markup settings.asciiEntities)
  have horder : page.InOrder := by
    rcases hpage with rfl | hpage
    · exact hrun
    · exact hrun.justify (Flow.spreadable_run settings _) hpage
  rw [hclamp]
  exact ⟨horder.clamp, horder.clamp.headingAt?_eq⟩

/-- The first line is spread, and the last word moves to the next one with both of its links. -/
theorem render_inOrder_moved :
    let settings : Settings := { maxWidth := 14, justify := true }
    let markup := ("<h1>T</h1><a href=\"u\">aaaa</a> bb <a href=\"v\">cccc</a> " ++
      "<a href=\"w\">d<b>ee</b></a><h2>U</h2><img src=\"i\"><img src=\"j\">").toList
    ∃ rendering, render settings markup = .ok rendering ∧
      rendering.page.lines = ["T", "aaaa  bb  cccc", "dee", "U", "", "[image]", "",
        "[image]"].map String.toList ∧
      rendering.page.links = [⟨1, 0, 4, ['u']⟩, ⟨1, 10, 14, ['v']⟩, ⟨2, 0, 1, ['w']⟩,
        ⟨2, 1, 3, ['w']⟩] ∧
      rendering.page.images.map (·.line) = [5, 7] ∧ rendering.page.InOrder ∧
      rendering.page.headingAt? 2 = some ⟨1, ['T'], 0⟩ ∧
      rendering.page.headingAt? 5 = some ⟨2, ['U'], 3⟩ := by
  intro settings markup
  have hpage : (render settings markup).toOption.map
      (fun r => (r.page.lines, r.page.links, r.page.images.map (·.line), r.page.headings)) =
        some (["T", "aaaa  bb  cccc", "dee", "U", "", "[image]", "", "[image]"].map String.toList,
          [⟨1, 0, 4, ['u']⟩, ⟨1, 10, 14, ['v']⟩, ⟨2, 0, 1, ['w']⟩, ⟨2, 1, 3, ['w']⟩], [5, 7],
          [⟨1, ['T'], 0⟩, ⟨2, ['U'], 3⟩]) := by decide +kernel
  cases hr : render settings markup with
  | error e => rw [hr] at hpage; cases hpage
  | ok rendering =>
    rw [hr] at hpage
    obtain ⟨hlines, hpage⟩ := Prod.mk.inj (Option.some.inj hpage)
    obtain ⟨hlinks, hpage⟩ := Prod.mk.inj hpage
    obtain ⟨himages, hheadings⟩ := Prod.mk.inj hpage
    obtain ⟨horder, hlookup⟩ := render_inOrder hr
    -- The headings are looked up among those of the page by the theorem.
    refine ⟨rendering, rfl, hlines, hlinks, himages, horder, ?_, ?_⟩
    · rw [hlookup, hheadings]
      decide
    · rw [hlookup, hheadings]
      decide

end Chapter

end ChapterLayout
