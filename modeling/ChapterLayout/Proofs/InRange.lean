import ChapterLayout.Proofs.Chapter
import ChapterLayout.Proofs.Flow.HeadingLines
import ChapterLayout.Proofs.Flow.MarkedLines

/-! # The lines that records stand on

Records are made while lines are still being put on the page, and at its end blank lines are
removed. Every record with columns is then moved into its line or dropped, and every anchor behind
the last line is moved there. Marks and headings are left alone:

* **`Page.InRange`** — whether all records that are moved stand on lines of the page;
* **`Flow.run_unspread`** — the anchors of a layout stand on lines of its page;
* **`Chapter.render_inRange`** — the records of a chapter stand on its lines. A mark may be left
  behind only on a line of preformatted text, and a heading only if a heading has text inside a
  table. -/

namespace ChapterLayout

namespace Page

/-- Whether a page has a line with a number. -/
def HasLine (page : Page) (i : Int) : Prop := 0 ≤ i ∧ i < page.lines.length

instance (page : Page) (i : Int) : Decidable (page.HasLine i) :=
  inferInstanceAs (Decidable (_ ∧ _))

/-- Whether an anchor may stand on a line. On a page without lines it stands where the first one
would be. -/
def HoldsAnchor (page : Page) (i : Int) : Prop := 0 ≤ i ∧ i ≤ max (page.lines.length - 1) 0

/-- Whether the records of a page that are moved into their lines stand on its lines. -/
structure InRange (page : Page) : Prop where
  highlights : ∀ span ∈ page.highlights, page.HasLine span.line
  links : ∀ link ∈ page.links, page.HasLine link.line
  images : ∀ image ∈ page.images, page.HasLine image.line
  columnMaps : ∀ entry ∈ page.columnMaps, page.HasLine entry.1
  anchors : ∀ anchor ∈ page.anchors, page.HoldsAnchor anchor.2

variable {page : Page} {i : Int}

/-! ## (1) Records that are moved into their lines -/

/-- A line that is found is on the page. -/
theorem hasLine_of_lineAt? {line : Line} (h : lineAt? page.lines i = some line) :
    page.HasLine i := by
  obtain ⟨n, rfl, hline⟩ := exists_of_lineAt? h
  obtain ⟨hlt, -⟩ := List.getElem?_eq_some_iff.1 hline
  exact ⟨Int.natCast_nonneg n, Int.ofNat_lt.2 hlt⟩

/-- **Records that are moved into their lines** stand on lines of the page. -/
theorem hasLine_of_clampRecords {ρ : Type} [Positioned ρ] [LawfulPositioned ρ] {records : List ρ}
    {r : ρ} (h : r ∈ clampRecords page.lines records) : page.HasLine (Positioned.line r) := by
  obtain ⟨original, -, hclamp⟩ := List.mem_filterMap.1 h
  rw [line_of_clampRecord? hclamp]
  obtain ⟨line, hline, -⟩ := Option.map_eq_some_iff.1 hclamp
  exact hasLine_of_lineAt? hline

/-- When the records are moved into their lines, column maps and anchors stay where they are. -/
theorem inRange_clamp (hmaps : ∀ entry ∈ page.columnMaps, page.HasLine entry.1)
    (hanchors : ∀ anchor ∈ page.anchors, page.HoldsAnchor anchor.2) : page.clamp.InRange where
  highlights _ h := hasLine_of_clampRecords (List.mem_of_mem_filter h)
  links _ h := hasLine_of_clampRecords h
  images _ h := hasLine_of_clampRecords h
  columnMaps := hmaps
  anchors := hanchors

/-- **Column maps** belong to lines of the page. -/
theorem LinesSpread.hasLine {maxWidth : Int} {lines : List Line} {maps : List (Int × ColumnMap)}
    (h : page.LinesSpread maxWidth lines maps) : ∀ entry ∈ maps, page.HasLine entry.1 := by
  intro entry hentry
  have hfound : (maps.lookup entry.1).isSome = true :=
    List.lookup_isSome_iff.2 ⟨entry, hentry, beq_self_eq_true _⟩
  obtain ⟨map, hmap⟩ := Option.isSome_iff_exists.1 hfound
  obtain ⟨n, hn, hlt⟩ := h.key entry.1 map hmap
  exact ⟨by omega, by omega⟩

end Page

namespace Flow

variable {settings : Settings} {flow flow' : Flow}

/-! ## (2) Anchors -/

/-- Whether no line of the page is spread yet, and no anchor stands before the first line. -/
structure Unspread (flow : Flow) : Prop where
  columnMaps : flow.page.columnMaps = []
  anchors : ∀ anchor ∈ flow.page.anchors, 0 ≤ anchor.2

/-- Anchors are recorded on lines that are yet to come. -/
theorem Change.unspread (hc : Change settings flow flow') (h : flow.Unspread) :
    flow'.Unspread := by
  refine ⟨hc.grows.columnMaps.trans h.columnMaps, fun anchor hanchor => ?_⟩
  rcases hc.grows.anchors anchor hanchor with hold | hnew
  · exact h.anchors anchor hold
  · rw [hnew]
    exact Int.natCast_nonneg _

/-- **The anchors of a layout** stand on lines of its page, of which none is spread yet. -/
theorem run_unspread (settings : Settings) (tokens : List Token) :
    (run settings tokens).page.columnMaps = [] ∧
      ∀ anchor ∈ (run settings tokens).page.anchors,
        (run settings tokens).page.HoldsAnchor anchor.2 := by
  have hstart : ({} : Flow).Unspread := ⟨rfl, fun _ h => absurd h List.not_mem_nil⟩
  have hfed : (feedAll {} settings tokens).Unspread :=
    feedAll_invariant hstart Change.unspread tokens
  have hflushed : ((feedAll {} settings tokens).flush settings).Unspread :=
    (flush_changes _).preserves Change.unspread hfed
  refine ⟨hflushed.columnMaps, fun anchor hanchor => ?_⟩
  -- Anchors behind the last line are moved there.
  obtain ⟨⟨name, line⟩, hmem, rfl⟩ := List.mem_map.1 hanchor
  have hline : 0 ≤ line := hflushed.anchors _ hmem
  show 0 ≤ min line _ ∧ min line (((run settings tokens).page.lines.length - 1 : Nat) : Int) ≤ _
  omega

end Flow

namespace Chapter

variable {settings : Settings} {markup : Text} {rendering : Rendering}

/-! ## (3) Chapters -/

/-- Spreading the lines of a page keeps everything in range, and leaves the number of lines, the
marks and the headings alone. -/
theorem inRange_justify {page justified : Page} (hmaps : page.columnMaps = [])
    (hanchors : ∀ anchor ∈ page.anchors, page.HoldsAnchor anchor.2)
    (h : justify settings page = .ok justified) :
    justified.clamp.InRange ∧ justified.lines.length = page.lines.length ∧
      justified.noJustify = page.noJustify ∧ justified.centered = page.centered ∧
      justified.headings = page.headings := by
  unfold justify at h
  split at h
  · obtain ⟨lines, maps, hspread, rfl⟩ := Page.exists_of_justify h
    have hlength : lines.length = page.lines.length := hspread.length
    refine ⟨Page.inRange_clamp (fun entry hentry => ?_) fun anchor hanchor => ?_, hlength, rfl, rfl,
      rfl⟩
    · obtain ⟨hnonneg, hlt⟩ := hspread.hasLine entry hentry
      exact ⟨hnonneg, hlength ▸ hlt⟩
    · obtain ⟨hnonneg, hle⟩ := hanchors anchor hanchor
      exact ⟨hnonneg, hlength ▸ hle⟩
  · obtain rfl := Except.ok.inj h
    refine ⟨Page.inRange_clamp ?_ hanchors, rfl, rfl, rfl, rfl⟩
    rw [hmaps]
    exact fun _ hentry => absurd hentry List.not_mem_nil

/-- **The records of a chapter stand on its lines:** highlights, links, images, column maps and
anchors always, marks unless they are on a line of preformatted text, and headings if no heading has
text inside a table. -/
theorem render_inRange (h : render settings markup = .ok rendering) :
    let tokens := Token.scan markup settings.asciiEntities
    rendering.page.InRange ∧
      (∀ i, rendering.page.Marks i → rendering.page.HasLine i ∨
        ∃ n : Nat, i = n ∧ (Flow.lineKinds settings {} tokens)[n]? = some .preformatted) ∧
      (Flow.headingsApart settings {} tokens = true →
        ∀ heading ∈ rendering.page.headings, rendering.page.HasLine heading.line) := by
  intro tokens
  obtain ⟨flow, hflow, h⟩ := exists_of_bind_ok h
  obtain ⟨page, hpage, h⟩ := exists_of_bind_ok h
  obtain rfl := Except.ok.inj h
  obtain rfl := Flow.eq_run_of_run? hflow
  obtain ⟨hmaps, hanchors⟩ := Flow.run_unspread settings tokens
  obtain ⟨hrange, hlength, hset, hcentered, hheadings⟩ := inRange_justify hmaps hanchors hpage
  refine ⟨hrange, fun i hi => ?_, fun hapart heading hheading => ?_⟩
  · have hmarks : (Flow.run settings tokens).page.Marks i :=
      hi.imp (fun hi => hset ▸ hi) fun hi => hcentered ▸ hi
    obtain ⟨n, rfl, hline | hpre⟩ := Flow.run_marks settings tokens hmarks
    · exact .inl ⟨Int.natCast_nonneg n, Int.ofNat_lt.2 (hlength ▸ hline)⟩
    · exact .inr ⟨n, rfl, hpre⟩
  · have hmem : heading ∈ (Flow.run settings tokens).page.headings := hheadings ▸ hheading
    obtain ⟨k, hk, hlt⟩ := Flow.run_headings settings tokens hapart heading hmem
    exact ⟨hk ▸ Int.natCast_nonneg k, hk ▸ Int.ofNat_lt.2 (hlength ▸ hlt)⟩

/-- The anchor of the last paragraph, which has no line, is moved to the last line. -/
theorem render_inRange_paragraphs :
    let settings : Settings := { maxWidth := 12, justify := true }
    let markup :=
      "<h1 id=\"t\">T</h1><p>aa bb cc dd ee</p><pre>x</pre><p id=\"e\"></p>".toList
    ∃ rendering, render settings markup = .ok rendering ∧
      rendering.page.lines = ["T".toList, [], "aa  bb cc dd".toList, "ee".toList, [], "x".toList] ∧
      rendering.page.anchors = [(['t'], 0), (['e'], 5)] ∧
      rendering.page.headings = [⟨1, ['T'], 0⟩] ∧ rendering.page.InRange ∧
      ∀ heading ∈ rendering.page.headings, rendering.page.HasLine heading.line := by
  intro settings markup
  have hpage : (render settings markup).toOption.map
      (fun r => (r.page.lines, r.page.anchors, r.page.headings)) =
        some (["T".toList, [], "aa  bb cc dd".toList, "ee".toList, [], "x".toList],
          [(['t'], 0), (['e'], 5)], [⟨1, ['T'], 0⟩]) := by decide +kernel
  have hapart : Flow.headingsApart settings {} (Token.scan markup settings.asciiEntities) = true :=
    by decide +kernel
  cases hr : render settings markup with
  | error e => rw [hr] at hpage; cases hpage
  | ok rendering =>
    rw [hr] at hpage
    obtain ⟨hlines, hpage⟩ := Prod.mk.inj (Option.some.inj hpage)
    obtain ⟨hanchors, hheadings⟩ := Prod.mk.inj hpage
    obtain ⟨hrange, -, hheading⟩ := render_inRange hr
    exact ⟨rendering, rfl, hlines, hanchors, hheadings, hrange, hheading hapart⟩

/-- When blank lines of preformatted text are removed at the end of a page, their marks stay. -/
theorem render_inRange_blankPre : ∃ rendering,
    render {} "<pre>\n\n\n</pre>".toList = .ok rendering ∧ rendering.page.lines = [] ∧
      ∃ i ∈ rendering.page.noJustify, ¬rendering.page.HasLine i := by
  have hpage : (render {} "<pre>\n\n\n</pre>".toList).toOption.map
      (fun r => (r.page.lines, r.page.noJustify)) = some ([], [0, 1]) := by decide +kernel
  cases hr : render {} "<pre>\n\n\n</pre>".toList with
  | error e => rw [hr] at hpage; cases hpage
  | ok rendering =>
    rw [hr] at hpage
    obtain ⟨hlines, hset⟩ := Prod.mk.inj (Option.some.inj hpage)
    refine ⟨rendering, rfl, hlines, 0, ?_, fun hline => ?_⟩
    · rw [hset]
      exact List.mem_cons_self
    · rw [Page.HasLine, hlines] at hline
      exact absurd hline (by decide)

/-- A heading with its text between the rows of a table loses its line, and is still listed. -/
example : (render {} "<table><h1>x</h1></table>".toList).toOption.map
    (fun r => (r.page.lines, r.page.headings)) = some ([], [⟨1, ['x'], 0⟩]) := by decide +kernel

end Chapter

end ChapterLayout
