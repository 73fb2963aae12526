import ChapterLayout.Proofs.Chapter
import ChapterLayout.Proofs.Flow.Limits
import ChapterLayout.Proofs.Justify.Limits
import ChapterLayout.Proofs.Table.Shares

/-! # Chapters within the limits of the machine

No markup is an error, but settings may ask for more than the machine can do. Laying out a chapter
has a result as long as memory can hold every indentation and every gap, and the width of the page
has a nearest number if the words of full lines are spread in proportion to it. The list of lines is
taken to have room for every line, however many blank lines the settings put between paragraphs:

* **`Settings.Moderate`** — settings whose sizes are small enough for any such line;
* **`Chapter.render_returns`** — when a chapter can be laid out, and that it can be with moderate
  settings. -/

namespace ChapterLayout

/-- Whether memory can hold the texts that settings ask for: the unit of indentation, the
indentation of as many lists as the tokens open, and a line of the width of the page if lines are
spread. With an integer for a threshold no line is spread. The spacing of paragraphs is not bounded:
it makes no text longer, only the list of lines, and this list is taken to have no bound. -/
structure Settings.Moderate (settings : Settings) (tokens : List Token) : Prop where
  indentSize : settings.typography.indentSize < LimitError.memorySize
  listIndent : settings.typography.listIndent * tokens.countP Token.opensList <
    LimitError.memorySize
  maxWidth : settings.justify = true →
    (∃ i, settings.threshold = .whole i) ∨ settings.maxWidth < LimitError.memorySize

namespace Chapter

/-- A chapter can be laid out exactly if its tokens can be, and the lines of their page can be
spread where the settings ask for it. -/
theorem exists_render_iff {settings : Settings} {markup : Text} :
    (∃ rendering, render settings markup = .ok rendering) ↔
      Flow.IndentsFit {} settings
          ((Token.scan markup settings.asciiEntities).map .token ++ [.finish]) ∧
        (settings.justify = true →
          (Flow.run settings (Token.scan markup settings.asciiEntities)).page.SpreadsFit
            settings.maxWidth settings.threshold) := by
  have hjustify (page : Page) : (∃ page', justify settings page = .ok page') ↔
      (settings.justify = true → page.SpreadsFit settings.maxWidth settings.threshold) := by
    rw [justify, ← Page.exists_justify_iff settings.threshold_inUnitRange]
    split
    · rename_i hspread
      simp only [hspread, true_imp_iff]
    · rename_i hspread
      exact iff_of_true ⟨page, rfl⟩ fun h => absurd h hspread
  -- A rendering fails where its run does or where its lines are spread.
  rw [← Flow.exists_steps?_iff, render, exists_bind_ok_iff]
  constructor
  · rintro ⟨flow, hflow, hrest⟩
    obtain ⟨page, hpage, -⟩ := exists_bind_ok_iff.1 hrest
    rw [Flow.eq_run_of_run? hflow] at hpage
    exact ⟨⟨flow, hflow⟩, (hjustify _).1 ⟨page, hpage⟩⟩
  · rintro ⟨⟨flow, hflow⟩, hspreads⟩
    obtain ⟨page, hpage⟩ := (hjustify _).2 hspreads
    rw [← Flow.eq_run_of_run? hflow] at hpage
    exact ⟨flow, hflow, exists_bind_ok_iff.2 ⟨page, hpage, _, rfl⟩⟩

/-- **When a chapter can be laid out.** Laying out any markup has a result exactly if memory can
hold every indentation that its tokens make, and, where lines are spread, for every line that is
neither exempt nor blank, the width of the page has a nearest number (or the threshold is an
integer) and memory can hold the gaps of the line if it is full. So every markup can be laid out
with moderate settings, whatever their classes and threshold, and with a page of any width if lines
are not spread. The width of the page does not matter for tables either: where their columns do not
fit into the room, every step of the arithmetic of their shares has a result. The lines themselves
may be any number, as many as the spacing of paragraphs asks for. -/
theorem render_returns (settings : Settings) (markup : Text) :
    let tokens := Token.scan markup settings.asciiEntities
    ((∃ rendering, render settings markup = .ok rendering) ↔
      Flow.IndentsFit {} settings (tokens.map .token ++ [.finish]) ∧
        (settings.justify = true →
          (Flow.run settings tokens).page.SpreadsFit settings.maxWidth settings.threshold)) ∧
    (settings.Moderate tokens → ∃ rendering, render settings markup = .ok rendering) ∧
    (∀ (headers : Row) (rows : List Row) (indentWidth : Int),
      let natural := Table.naturalWidths headers rows
      let available := Table.room natural.length settings.maxWidth indentWidth
      available < natural.sum → natural.sum < Binary64.overflow → ∀ w ∈ natural,
        ∃ room width, Binary64.ofInt? available = some room ∧
          ((Binary64.ratio w natural.sum).mul room).truncate? = some width ∧
          Table.share w natural.sum available = width) := by
  refine ⟨exists_render_iff, fun hmoderate => ?_,
    fun headers rows indentWidth hfull hrange w hw => ?_⟩
  · refine exists_render_iff.2 ⟨?_, fun hspread => ?_⟩
    · exact Flow.indentsFit_of_lt hmoderate.indentSize hmoderate.listIndent
    · exact Page.spreadsFit_of_lt _ settings.threshold_inUnitRange settings.maxWidth_pos
        (hmoderate.maxWidth hspread)
  · exact Table.exists_share (List.le_sum_of_mem hw) (Table.room_nonneg _ _ _) hfull hrange

/-- Nested lists on a page with spread lines, under a threshold of a half. -/
theorem render_returns_nested :
    let settings : Settings :=
      { maxWidth := 12, justify := true, threshold := .fraction (.ratio 1 2) }
    let markup := "<p>aa bb cc dd</p><ul><li>e<ol><li>f</ol></ul>".toList
    settings.Moderate (Token.scan markup settings.asciiEntities) ∧
      ∃ rendering, render settings markup = .ok rendering := by
  intro settings markup
  have hmoderate : settings.Moderate (Token.scan markup settings.asciiEntities) :=
    ⟨by decide, by decide +kernel, fun _ => .inr (by decide)⟩
  exact ⟨hmoderate, (render_returns settings markup).2.1 hmoderate⟩

/-- **A page that is too wide:** no number is nearest to its width, so no line can be spread. -/
theorem render_tooWide :
    let settings : Settings :=
      { maxWidth := Binary64.overflow
        justify := true
        maxWidth_pos := Int.natCast_pos.2 Binary64.overflow_pos }
    render settings "a".toList = .error .integerTooLarge ∧
      ¬∃ rendering, render settings "a".toList = .ok rendering := by
  intro settings
  have herror : render settings "a".toList = .error .integerTooLarge := by decide +kernel
  refine ⟨herror, ?_⟩
  rintro ⟨rendering, h⟩
  cases herror.symm.trans h

end Chapter

end ChapterLayout
