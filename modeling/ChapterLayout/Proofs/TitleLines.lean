import ChapterLayout.Proofs.Flow.Titles
import ChapterLayout.Proofs.InRange

/-! # The title lines of a chapter

A centred line of a layout is exempt from justification and highlighted as a title, once and as a
whole. The line is left alone when others are spread, and its highlight when records are moved into
their lines:

* **`Page.TitleLine.justify`** — a line that is exempt is not spread, and keeps its highlights;
* **`Page.TitleLine.clamp`** — a highlight over a whole line stays where it is;
* **`Chapter.render_titleLines`** — so it is in every chapter. -/

namespace ChapterLayout

namespace Page

variable {page justified : Page} {i : Int} {maxWidth : Int} {threshold : Threshold}

/-! ## (1) Lines that are spread -/

/-- The spans of a row that is not spread stay as they are. -/
theorem filter_moveRecord {maps : List (Int × ColumnMap)} (hnone : maps.lookup i = none)
    (spans : List Span) (group : Group) :
    (spans.map (moveRecord maps)).filter (fun s => s.line = i ∧ s.group = group) =
      spans.filter (fun s => s.line = i ∧ s.group = group) := by
  have hstay : ∀ s : Span, s.line = i → moveRecord maps s = s := by
    intro s hs
    have hlookup : maps.lookup (Positioned.line s) = none := by
      rw [← hnone, ← hs]
      rfl
    rw [moveRecord, hlookup]
  have hgroup : ∀ s : Span, (moveRecord maps s).group = s.group := by
    intro s
    rw [moveRecord]
    split <;> rfl
  -- A span of the line stays where it is, and one of another line stays on that line.
  induction spans with
  | nil => rfl
  | cons s spans ih =>
    have hline : (moveRecord maps s).line = s.line := line_moveRecord maps s
    rw [List.map_cons, List.filter_cons, List.filter_cons, hline, hgroup, ih]
    split
    · rename_i hrow
      rw [decide_eq_true_eq] at hrow
      rw [hstay s hrow.1]
    · rfl

/-- No line is centred by spreading others. -/
theorem centered_of_justify (hjustify : page.justify maxWidth threshold = .ok justified) :
    justified.centered = page.centered := by
  obtain ⟨lines, maps, -, rfl⟩ := exists_of_justify hjustify
  rfl

/-- **A title line** is not spread, and its highlight stays. -/
theorem TitleLine.justify (h : page.TitleLine i)
    (hjustify : page.justify maxWidth threshold = .ok justified) :
    justified.TitleLine i ∧ justified.columnMap? i = none := by
  obtain ⟨lines, maps, hlines, rfl⟩ := exists_of_justify hjustify
  have hnone : maps.lookup i = none := by
    cases hmap : maps.lookup i with
    | none => rfl
    | some map =>
      obtain ⟨n, rfl, hlt⟩ := hlines.key i map hmap
      obtain ⟨new, -, hfate⟩ := hlines.line n _ (List.getElem?_eq_getElem hlt)
      rw [hmap] at hfate
      cases hfate with
      | spread hexempt => exact absurd h.exempt hexempt
  refine ⟨⟨h.exempt, fun shown hshown hne => ?_⟩, hnone⟩
  obtain ⟨n, rfl, hline⟩ := exists_of_lineAt? hshown
  have hlt : n < page.lines.length := hlines.length ▸ (List.getElem?_eq_some_iff.1 hline).1
  have hmem := List.getElem?_eq_getElem hlt
  obtain ⟨new, hnew, hfate⟩ := hlines.line n _ hmem
  rw [hnone] at hfate
  cases hfate
  -- The line is the one that was highlighted.
  obtain rfl : page.lines[n] = shown := Option.some.inj (hnew.symm.trans hline)
  show (page.highlights.map (moveRecord maps)).filter _ = _
  rw [filter_moveRecord hnone]
  exact h.highlight _ ((lineAt?_natCast _ _).trans hmem) hne

/-! ## (2) Records that are moved into their lines -/

/-- The spans of a row are moved into their line by themselves. -/
theorem filter_clampSpans (lines : List Line) (spans : List Span) (i : Int) (group : Group) :
    (clampSpans lines spans).filter (fun s => s.line = i ∧ s.group = group) =
      clampSpans lines (spans.filter fun s => s.line = i ∧ s.group = group) := by
  have hrow : ∀ s : Span, (clampRecord? lines s).filter (fun s => s.line = i ∧ s.group = group) =
      if decide (s.line = i ∧ s.group = group) = true then clampRecord? lines s else none := by
    intro s
    cases hs : clampRecord? lines s with
    | none => simp
    | some s' =>
      have hsame : s'.line = s.line ∧ s'.group = s.group := by
        obtain ⟨line, -, rfl⟩ := Option.map_eq_some_iff.1 hs
        exact ⟨rfl, rfl⟩
      rw [Option.filter_some, hsame.1, hsame.2]
  unfold clampSpans clampRecords
  rw [List.filter_comm, List.filter_filterMap, List.filterMap_filter]
  congr 1
  apply List.filterMap_congr
  intro s hs
  exact hrow s

/-- **A title line** keeps its highlight. -/
theorem TitleLine.clamp (h : page.TitleLine i) : page.clamp.TitleLine i := by
  refine ⟨h.exempt, fun line hline hne => ?_⟩
  have hpos : 0 < line.length := List.length_pos_iff.2 hne
  have hstay : clampRecord? page.lines (⟨i, 0, line.length, Group.title⟩ : Span) =
      some ⟨i, 0, line.length, Group.title⟩ :=
    clampRecord?_of_le hline (Int.le_refl _) (Int.natCast_nonneg _) (Int.le_refl _)
  show (clampSpans page.lines page.highlights).filter _ = _
  rw [filter_clampSpans, h.highlight line hline hne, clampSpans, clampRecords,
    List.filterMap_cons_some hstay, List.filterMap_nil]
  exact List.filter_cons_of_pos (by simpa using hpos)

end Page

namespace Chapter

variable {settings : Settings} {markup : Text} {rendering : Rendering}

/-! ## (3) Chapters -/

/-- **Centred lines are title lines.** Every centred line of a chapter is exempt from justification
and was not spread, and if it has text it is highlighted as a title once and as a whole. -/
theorem render_titleLines (h : render settings markup = .ok rendering) :
    ∀ i ∈ rendering.page.centered, ∀ line, lineAt? rendering.page.lines i = some line →
      line ≠ [] → i ∈ rendering.page.noJustify ∧ rendering.page.columnMap? i = none ∧
        rendering.page.highlights.filter (fun s => s.line = i ∧ s.group = Group.title) =
          [⟨i, 0, line.length, Group.title⟩] := by
  obtain ⟨page, hclamp, hpage⟩ := exists_of_render h
  have hrun := Flow.run_titled settings (Token.scan markup settings.asciiEntities)
  have htitle : ∀ i ∈ page.centered, page.TitleLine i ∧ page.columnMap? i = none := by
    intro i hi
    rcases hpage with rfl | hpage
    · obtain ⟨hmaps, -⟩ := Flow.run_unspread settings (Token.scan markup settings.asciiEntities)
      refine ⟨hrun i hi, ?_⟩
      rw [Page.columnMap?, hmaps]
      rfl
    · exact (hrun i (Page.centered_of_justify hpage ▸ hi)).justify hpage
  rw [hclamp]
  intro i hi line hline hne
  obtain ⟨hline', hmap⟩ := htitle i hi
  exact ⟨hline'.exempt, hmap, hline'.clamp.highlight line hline hne⟩

/-- The last word of the title moves with the spans of its own, and only the paragraph is spread. -/
theorem render_titleLines_moved :
    let settings : Settings :=
      { maxWidth := 14, justify := true, classStyles := [("t".toList, Group.title)] }
    let markup := ("<title>My <i class=\"t\">book</i> of <b>wo<u class=\"t\">rds</u></b></title>" ++
      "aaaa bb cccc dd ee").toList
    ∃ rendering, render settings markup = .ok rendering ∧
      rendering.page.lines = ["My book of", "words", "", "aaaa  bb  cccc", "dd ee"].map
        String.toList ∧
      rendering.page.centered = [0, 1] ∧ rendering.page.columnMaps.map Prod.fst = [3] ∧
      ∀ i ∈ [(0 : Int), 1], i ∈ rendering.page.noJustify ∧ rendering.page.columnMap? i = none ∧
        ∃ line, lineAt? rendering.page.lines i = some line ∧
          rendering.page.highlights.filter (fun s => s.line = i ∧ s.group = Group.title) =
            [⟨i, 0, line.length, Group.title⟩] := by
  intro settings markup
  have hpage : (render settings markup).toOption.map
      (fun r => (r.page.lines, r.page.centered, r.page.columnMaps.map Prod.fst)) =
        some (["My book of", "words", "", "aaaa  bb  cccc", "dd ee"].map String.toList, [0, 1],
          [3]) := by decide +kernel
  cases hr : render settings markup with
  | error e => rw [hr] at hpage; cases hpage
  | ok rendering =>
    rw [hr] at hpage
    obtain ⟨hlines, hpage⟩ := Prod.mk.inj (Option.some.inj hpage)
    obtain ⟨hcentered, hmaps⟩ := Prod.mk.inj hpage
    have htitle := render_titleLines hr
    rw [hcentered, hlines] at htitle
    refine ⟨rendering, rfl, hlines, hcentered, hmaps, fun i hi => ?_⟩
    -- The lines of a title are not empty.
    obtain ⟨line, hline, hne⟩ : ∃ line, lineAt? (["My book of", "words", "", "aaaa  bb  cccc",
        "dd ee"].map String.toList) i = some line ∧ line ≠ [] := by
      rcases List.mem_pair.1 hi with rfl | rfl
      · exact ⟨"My book of".toList, by decide, by decide⟩
      · exact ⟨"words".toList, by decide, by decide⟩
    obtain ⟨hexempt, hmap, hhighlight⟩ := htitle i hi line hline hne
    exact ⟨hexempt, hmap, line, hlines ▸ hline, hhighlight⟩

end Chapter

end ChapterLayout
