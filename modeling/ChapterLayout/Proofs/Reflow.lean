import ChapterLayout.Proofs.Chapter
import ChapterLayout.Proofs.Flow.Reflow

/-! # Chapters in lines of any width

Rendering a chapter in lines of another width, spread or not, breaks its text at other places and
shows the same text:

* **`Text.SpacedAlike.collapseBy_eq`** — spreading a line changes no gap to a letter or back;
* **`Chapter.render_collapseBy`** — a chapter shows the text that its tokens lay out;
* **`Chapter.render_reflow`** — so two renderings show the same text up to the blanks of its
  gaps. -/

namespace ChapterLayout

variable {p : Char → Bool} {maxWidth : Int}

/-! ## (1) Lines that are spread -/

/-- **Texts that are spaced alike** are the same once their gaps are collapsed. -/
theorem Text.SpacedAlike.collapseBy_eq {s t : Text} (hspace : p ' ' = true)
    (h : SpacedAlike s t) : collapseBy p s = collapseBy p t := by
  induction h with
  | nil => rfl
  | cons c _ ih => exact collapseBy_append_congr_right hspace [c] ih
  | spaces m n _ ih =>
    have hspaces : ∀ k : Nat, collapseBy p (List.replicate (k + 1) ' ') = [' '] := fun k =>
      collapseBy_breaks (by simp) fun c hc => by rwa [List.eq_of_mem_replicate hc]
    exact collapseBy_append_congr hspace ((hspaces m).trans (hspaces n).symm) ih

/-- Gaps between words are positive before and after a line is spread. -/
theorem Stretch.spacedAlike_laid {s : Stretch} {l : List Stretch} (hsep : Separated (s :: l))
    (hadded : s.added = 0) : Text.SpacedAlike (laid gap (s :: l)) (laid wide (s :: l)) := by
  have hrest : ∀ l : List Stretch, (∀ t ∈ l, 0 < t.gap) →
      Text.SpacedAlike (laid gap l) (laid wide l) := by
    intro l hl
    induction l with
    | nil => exact .nil
    | cons t l ih =>
      obtain ⟨ht, hl⟩ := List.forall_mem_cons.1 hl
      rw [laid_cons, laid_cons]
      exact (Text.SpacedAlike.of_spaces (Or.inr ⟨ht, Nat.add_pos_left ht t.added⟩)).append
        ((Text.SpacedAlike.refl t.word).append (ih hl))
  have hwide := wide_of_added hadded
  rw [laid_cons, laid_cons, hwide]
  exact (Text.SpacedAlike.refl _).append
    ((Text.SpacedAlike.refl s.word).append (hrest l hsep.gap_pos))

/-- **A line that is spread** is spaced like the line as it was. -/
theorem spacedAlike_of_spread {line new : Line} {map : ColumnMap}
    (h : spread line maxWidth = some (new, map)) (hline : line.getLast? ≠ some ' ') :
    Text.SpacedAlike line new := by
  obtain ⟨s, l, hsep, hadded, rfl, rfl, -, -⟩ := Stretch.exists_stretches_of_spread h hline
  exact Stretch.spacedAlike_laid hsep hadded

/-- **The lines of a page** are spaced like the lines as they were, one by one. -/
theorem Page.LinesSpread.spacedAlike {page : Page} {lines : List Line}
    {maps : List (Int × ColumnMap)} (h : page.LinesSpread maxWidth lines maps)
    (htrimmed : page.LinesTrimmed) : List.Forall₂ Text.SpacedAlike lines page.lines := by
  refine List.forall₂_iff_get.2 ⟨h.length, ?_⟩
  intro n hn hn'
  have hmem := List.getElem?_eq_getElem hn'
  obtain ⟨new, hnew, hfate⟩ := h.line n _ hmem
  have hget : lines[n] = new := Option.some.inj ((List.getElem?_eq_getElem hn).symm.trans hnew)
  show Text.SpacedAlike lines[n] page.lines[n]
  rw [hget]
  generalize page.lines[n] = line at hmem hfate ⊢
  generalize maps.lookup (n : Int) = map at hfate
  cases hfate with
  | kept => exact Text.SpacedAlike.refl _
  | spread hexempt hspread =>
    have hlast := (htrimmed n line hmem).resolve_left hexempt
    exact (spacedAlike_of_spread hspread hlast).symm

/-- The lines of a page show the same text when they are spread. -/
theorem Page.LinesSpread.collapseBy_eq {page : Page} {lines : List Line}
    {maps : List (Int × ColumnMap)} (hspace : p ' ' = true)
    (h : page.LinesSpread maxWidth lines maps) (htrimmed : page.LinesTrimmed) :
    Text.collapseBy p (Text.joinLines lines) = Text.collapseBy p (Text.joinLines page.lines) :=
  Text.collapseBy_joinLines_congr hspace
    ((h.spacedAlike htrimmed).imp fun _ _ halike => halike.collapseBy_eq hspace)

/-! ## (2) Chapters -/

namespace Chapter

variable {settings settings' : Settings} {markup : Text} {rendering rendering' : Rendering}

/-- A chapter whose lines are known was laid out. -/
theorem exists_of_lines (settings : Settings) (markup : Text) (lines : List Line)
    (h : (render settings markup).toOption.map (·.page.lines) = some lines) :
    ∃ rendering, render settings markup = .ok rendering ∧ rendering.page.lines = lines := by
  cases hrender : render settings markup with
  | error e => simp [hrender, Except.toOption] at h
  | ok rendering => exact ⟨rendering, rfl, by simpa [hrender, Except.toOption] using h⟩

/-- **A chapter shows the text that its tokens lay out.** -/
theorem render_collapseBy (hspace : p ' ' = true) (h : render settings markup = .ok rendering) :
    Text.collapseBy p (Text.joinLines rendering.page.lines) =
      Text.collapseBy p (Text.joinLines
        (Flow.run settings (Token.scan markup settings.asciiEntities)).page.lines) := by
  obtain ⟨flow, hflow, h⟩ := exists_of_bind_ok h
  obtain ⟨page, hpage, h⟩ := exists_of_bind_ok h
  obtain rfl := Except.ok.inj h
  obtain rfl := Flow.eq_run_of_run? hflow
  show Text.collapseBy p (Text.joinLines page.lines) = _
  rw [justify] at hpage
  split at hpage
  · obtain ⟨lines, maps, hlines, rfl⟩ := Page.exists_of_justify hpage
    exact hlines.collapseBy_eq hspace (Flow.spreadable_run settings _).lines
  · obtain rfl := Except.ok.inj hpage
    rfl

/-- **Two renderings of a chapter** in lines of different widths show the same text up to its gaps,
if nothing is laid out as wide as the page. -/
theorem render_collapseBy_congr (hspace : p ' ' = true) (hbreak : p '\n' = true)
    (halike : settings.Alike settings') (h : render settings markup = .ok rendering)
    (h' : render settings' markup = .ok rendering')
    (hwide : ∀ token ∈ Token.scan markup settings.asciiEntities, token.isWide = false)
    (hquote : ∀ token ∈ Token.scan markup settings.asciiEntities,
      p '│' = true ∨ token.role ≠ .quote) :
    Text.collapseBy p (Text.joinLines rendering.page.lines) =
      Text.collapseBy p (Text.joinLines rendering'.page.lines) := by
  rw [render_collapseBy hspace h, render_collapseBy hspace h', ← halike.asciiEntities]
  exact Flow.run_reflow hspace hbreak halike hwide hquote

/-- **Reflow keeps the text.** Two renderings of a chapter in lines of different widths, spread or
not, show the same text up to blanks, if it has no quotations and nothing that is laid out as wide
as the page. -/
theorem render_reflow (halike : settings.Alike settings')
    (h : render settings markup = .ok rendering) (h' : render settings' markup = .ok rendering')
    (hwide : ∀ token ∈ Token.scan markup settings.asciiEntities, token.isWide = false)
    (hquote : ∀ token ∈ Token.scan markup settings.asciiEntities, token.role ≠ .quote) :
    Text.collapse (Text.joinLines rendering.page.lines) =
      Text.collapse (Text.joinLines rendering'.page.lines) := by
  rw [Text.collapse_eq_collapseBy, Text.collapse_eq_collapseBy]
  exact render_collapseBy_congr rfl rfl halike h h' hwide fun token ht => Or.inr (hquote token ht)

/-- A list in lines that are wrapped and spread, and in wide lines. -/
theorem render_reflow_list :
    let narrow : Settings := { maxWidth := 9, justify := true }
    let markup := "<p>aa b c d</p><ul><li>ee <b>ff</b>gg hh</li></ul>".toList
    ∃ rendering rendering', render narrow markup = .ok rendering ∧
      render {} markup = .ok rendering' ∧
      rendering.page.lines =
        ["aa  b c d".toList, [], "  • ee".toList, "    ffgg".toList, "    hh".toList] ∧
      rendering'.page.lines = ["aa b c d".toList, [], "  • ee ffgg hh".toList] ∧
      Text.collapse (Text.joinLines rendering.page.lines) =
        Text.collapse (Text.joinLines rendering'.page.lines) := by
  intro narrow markup
  obtain ⟨rendering, h, hlines⟩ := exists_of_lines narrow markup
    ["aa  b c d".toList, [], "  • ee".toList, "    ffgg".toList, "    hh".toList]
    (by decide +kernel)
  obtain ⟨rendering', h', hlines'⟩ := exists_of_lines {} markup
    ["aa b c d".toList, [], "  • ee ffgg hh".toList] (by decide +kernel)
  have halike : narrow.Alike {} := by decide
  have htokens : ∀ token ∈ Token.scan markup narrow.asciiEntities,
      token.isWide = false ∧ token.role ≠ .quote := by decide +kernel
  have hsame := render_reflow halike h h' (fun token ht => (htokens token ht).1)
    fun token ht => (htokens token ht).2
  exact ⟨rendering, rendering', h, h', hlines, hlines', hsame⟩

end Chapter

end ChapterLayout
