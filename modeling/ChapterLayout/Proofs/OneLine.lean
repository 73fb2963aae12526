import ChapterLayout.Proofs.Flow.OneLine
import ChapterLayout.Proofs.Reflow

/-! # The lines of a chapter are lines of its text

References, attribute values and raw sections may put any character into the text of a chapter, and
so may preformatted text and the cells of a table. None of them puts a line break into a line, and
spreading a line puts spaces into it only:

* **`Text.SpacedAlike.isOneLine`** — a text that is spaced like one line is one line;
* **`Chapter.render_isOneLine`** — every line of a chapter is one line, so the lines are read back
  from the text that joins them. -/

namespace ChapterLayout

/-- Spaces break no line. -/
theorem Text.SpacedAlike.isOneLine {s t : Text} (h : SpacedAlike s t) (ht : t.IsOneLine) :
    s.IsOneLine := by
  induction h with
  | nil => exact ht
  | cons c _ ih =>
    obtain ⟨hc, ht⟩ := List.forall_mem_cons.1 ht
    exact List.forall_mem_cons.2 ⟨hc, ih ht⟩
  | spaces m n _ ih =>
    exact (isOneLine_replicate _ rfl).append (ih (List.forall_mem_append.1 ht).2)

/-- **Spreading the lines of a page** puts no line break into them. -/
theorem Page.LinesSpread.isOneLine {page : Page} {maxWidth : Int} {lines : List Line}
    {maps : List (Int × ColumnMap)} (h : page.LinesSpread maxWidth lines maps)
    (htrimmed : page.LinesTrimmed) (hpage : ∀ line ∈ page.lines, line.IsOneLine) :
    ∀ line ∈ lines, line.IsOneLine := by
  intro new hnew
  -- A line on the page and its spread form have the same number.
  obtain ⟨n, hn, rfl⟩ := List.mem_iff_get.1 hnew
  have halike := List.forall₂_iff_get.1 (h.spacedAlike htrimmed)
  have hn' : n < page.lines.length := halike.1 ▸ n.isLt
  exact (halike.2 n n.isLt hn').isOneLine (hpage _ (List.get_mem _ _))

namespace Chapter

variable {settings : Settings} {markup : Text} {rendering : Rendering}

/-- **Every line of a chapter is one line,** whatever its markup holds: no line holds a line feed or
a carriage return. If there are lines, the text that joins them is split into them again. -/
theorem render_isOneLine (h : render settings markup = .ok rendering) :
    (∀ line ∈ rendering.page.lines, '\n' ∉ line ∧ '\r' ∉ line) ∧
      (rendering.page.lines ≠ [] →
        Text.splitOn '\n' (Text.joinLines rendering.page.lines) = rendering.page.lines) := by
  have hlines : ∀ line ∈ rendering.page.lines, line.IsOneLine := by
    obtain ⟨page, hclamp, hpage⟩ := exists_of_render h
    have hrun := Flow.run_isOneLine settings (Token.scan markup settings.asciiEntities)
    rw [hclamp]
    rcases hpage with rfl | hpage
    · exact hrun
    · obtain ⟨lines, maps, hspread, rfl⟩ := Page.exists_of_justify hpage
      exact hspread.isOneLine (Flow.spreadable_run settings _).lines hrun
  have hbreaks : ∀ line ∈ rendering.page.lines, '\n' ∉ line ∧ '\r' ∉ line := fun line hline =>
    Text.isOneLine_iff.1 (hlines line hline)
  exact ⟨hbreaks, fun hne => Text.splitOn_joinLines hne fun line hline => (hbreaks line hline).1⟩

/-- Line breaks by reference and in a raw section, in a paragraph, in preformatted text, in the
description of an image and in a cell. -/
theorem render_isOneLine_references :
    let settings : Settings := { maxWidth := 12, justify := true }
    let markup := ("<p>aa bb&#13;cc <![CDATA[dd\nee]]></p><pre>f&#13;g</pre>" ++
      "<img src=\"s\" alt=\"h&#10;i\"/><table><tr><td>j&#13;k</td></tr></table>").toList
    ∃ rendering, render settings markup = .ok rendering ∧
      rendering.page.lines =
        ["aa  bb cc dd".toList, "ee".toList, [], "f".toList, "g".toList, [],
          "[image: h i]".toList, [], "┌────────────┐".toList, "│ j k        │".toList,
          "└────────────┘".toList] ∧
      Text.splitOn '\n' (Text.joinLines rendering.page.lines) = rendering.page.lines := by
  intro settings markup
  obtain ⟨rendering, h, hlines⟩ := exists_of_lines settings markup
    ["aa  bb cc dd".toList, "ee".toList, [], "f".toList, "g".toList, [],
      "[image: h i]".toList, [], "┌────────────┐".toList, "│ j k        │".toList,
      "└────────────┘".toList] (by decide +kernel)
  have hne : rendering.page.lines ≠ [] := by
    rw [hlines]
    exact List.cons_ne_nil _ _
  exact ⟨rendering, h, hlines, (render_isOneLine h).2 hne⟩

end Chapter

end ChapterLayout
