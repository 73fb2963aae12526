import ChapterLayout.Proofs.Excerpt.Capture
import ChapterLayout.Proofs.Reflow

/-! # Excerpts after a reflow

An excerpt that was taken from one rendering of a chapter is looked for in another one, whose lines
have a different width. Blanks do not matter, but the lines of a quotation start with bars, and a
quote that goes over several of them holds these bars:

* **`Excerpt.findRange?_reflow`** — an excerpt is found again if the chapter has no quotations, or
  if its quote holds neither blanks nor bars;
* **`Excerpt.findRange?_reflow_bar`** — a quote of two lines of a quotation may be lost. -/

namespace ChapterLayout.Excerpt

open Quote

variable {settings settings' : Settings} {markup : Text} {rendering rendering' : Rendering}
  {range : TextRange} {contextChars : Int}

/-- What a line of a quotation starts with: blanks and bars. -/
def isBlankOrBar (c : Char) : Bool := Text.isBlank c || c == '│'

/-- A text without blanks at its ends is part of every text that collapses to the same. -/
theorem collapse_isInfix {u m v s' : Text} (htrim : Text.IsTrimmed Text.isBlank m) (hm : m ≠ [])
    (h : Text.collapse (u ++ (m ++ v)) = Text.collapse s') :
    Text.collapse m <:+: Text.collapse s' := by
  rw [← h]
  simp only [Text.collapse_eq_collapseBy]
  rw [htrim.collapseBy_append hm, ← List.append_assoc]
  exact ⟨_, _, rfl⟩

/-- A text without blanks and bars is part of every text that is the same up to both. -/
theorem collapse_isInfix_of_letters {s m s' : Text} (hletters : ∀ c ∈ m, isBlankOrBar c = false)
    (hm : m <:+: s) (h : Text.collapseBy isBlankOrBar s = Text.collapseBy isBlankOrBar s') :
    Text.collapse m <:+: Text.collapse s' := by
  have hvisible : ∀ c ∈ m, Text.isBlank c = false := fun c hc =>
    (Bool.or_eq_false_iff.1 (hletters c hc)).1
  have hs' : m <:+: s' := by
    rwa [← Text.infix_collapseBy_iff (p := isBlankOrBar) rfl hletters, ← h,
      Text.infix_collapseBy_iff rfl hletters]
  rw [Text.collapse_eq_collapseBy, Text.collapse_eq_collapseBy, Text.collapseBy_letters hvisible]
  exact (Text.infix_collapseBy_iff rfl hvisible).2 hs'

/-- **Excerpts are found again after a reflow.** The quote of an excerpt is found in any other
rendering of its chapter, if nothing in the chapter is laid out as wide as the page, and if it has
no quotations or the quote holds neither blanks nor bars. -/
theorem findRange?_reflow (color : Text) (note : Option Text) (halike : settings.Alike settings')
    (h : Chapter.render settings markup = .ok rendering)
    (h' : Chapter.render settings' markup = .ok rendering')
    (hwide : ∀ token ∈ Token.scan markup settings.asciiEntities, token.isWide = false)
    (hcontext : 0 ≤ contextChars)
    (hvisible : ∃ c ∈ ((Text.joinLines rendering.page.lines).take
      (bounds rendering.page.lines range).2).drop (bounds rendering.page.lines range).1,
        Text.isBlank c = false)
    (hquote : (∀ token ∈ Token.scan markup settings.asciiEntities, token.role ≠ .quote) ∨
      ∀ c ∈ (capture rendering.page.lines range contextChars color note).text,
        isBlankOrBar c = false) :
    let excerpt := capture rendering.page.lines range contextChars color note
    (findRange? rendering'.page.lines excerpt.text excerpt.contextBefore
      excerpt.contextAfter).isSome = true := by
  dsimp only
  obtain ⟨hle, hstop⟩ := bounds_le rendering.page.lines range
  obtain ⟨u, m, v, hs, hselected, htrim, hm⟩ := exists_trimBounds hle hstop hvisible
  rw [capture_eq hcontext color note hs hselected] at hquote ⊢
  have hpart : Text.collapse m <:+: Text.collapse (Text.joinLines rendering'.page.lines) := by
    rcases hquote with hquote | hletters
    · -- Without quotations, the collapsed text is the same in both renderings.
      refine collapse_isInfix (u := u) (v := v) htrim hm ?_
      rw [← hs, Text.collapse_eq_collapseBy, Text.collapse_eq_collapseBy]
      exact Chapter.render_collapseBy_congr rfl rfl halike h h' hwide
        fun token ht => Or.inr (hquote token ht)
    · -- With quotations, it is the same up to bars.
      refine collapse_isInfix_of_letters hletters ⟨u, v, ?_⟩
        (Chapter.render_collapseBy_congr rfl rfl halike h h' hwide fun _ _ => Or.inl rfl)
      rw [hs, List.append_assoc]
  rw [← quote_queryOf htrim u v contextChars.toNat] at hpart
  exact findRange?_isSome _ _ (quote_queryOf_ne_nil htrim hm u v contextChars.toNat) hpart

/-- The last word of a quotation is found in a line of another width. -/
theorem findRange?_reflow_word :
    let narrow : Settings := { maxWidth := 10 }
    let markup := "<blockquote><p>aa bb cc</p></blockquote>".toList
    ∃ rendering rendering', Chapter.render narrow markup = .ok rendering ∧
      Chapter.render {} markup = .ok rendering' ∧
      rendering.page.lines = ["│   aa bb".toList, "│   cc".toList] ∧
      let excerpt := capture rendering.page.lines ⟨1, 4, 1, 6⟩
      excerpt.text = "cc".toList ∧
        (findRange? rendering'.page.lines excerpt.text excerpt.contextBefore
          excerpt.contextAfter).isSome = true := by
  intro narrow markup
  obtain ⟨rendering, h, hlines⟩ := Chapter.exists_of_lines narrow markup
    ["│   aa bb".toList, "│   cc".toList] (by decide +kernel)
  obtain ⟨rendering', h', -⟩ := Chapter.exists_of_lines {} markup
    ["│   aa bb cc".toList] (by decide +kernel)
  have halike : narrow.Alike {} := by decide
  have hwide : ∀ token ∈ Token.scan markup narrow.asciiEntities, token.isWide = false := by
    decide +kernel
  have htext : (capture rendering.page.lines ⟨1, 4, 1, 6⟩).text = "cc".toList := by
    rw [hlines]
    decide +kernel
  -- The quote is one letter, so that all of its conditions can be computed.
  refine ⟨rendering, rendering', h, h', hlines, htext, ?_⟩
  refine findRange?_reflow _ none halike h h' hwide (by decide) ?_ (Or.inr ?_)
  · rw [hlines]
    exact ⟨'c', by decide +kernel, rfl⟩
  · rw [htext]
    intro c hc
    obtain rfl : c = 'c' := by simpa using hc
    rfl

/-- **A quote of two lines of a quotation may be lost:** it holds the bar of the second line, and in
a line that is wide enough no bar stands between its words. -/
theorem findRange?_reflow_bar :
    let markup := "<blockquote><p>aa bb cc</p></blockquote>".toList
    ∃ rendering rendering', Chapter.render { maxWidth := 10 } markup = .ok rendering ∧
      Chapter.render {} markup = .ok rendering' ∧
      rendering.page.lines = ["│   aa bb".toList, "│   cc".toList] ∧
      rendering'.page.lines = ["│   aa bb cc".toList] ∧
      let excerpt := capture rendering.page.lines ⟨0, 4, 1, 6⟩
      excerpt.text = "aa bb\n│   cc".toList ∧
        findRange? rendering'.page.lines excerpt.text excerpt.contextBefore
          excerpt.contextAfter = none := by
  intro markup
  obtain ⟨rendering, h, hlines⟩ := Chapter.exists_of_lines { maxWidth := 10 } markup
    ["│   aa bb".toList, "│   cc".toList] (by decide +kernel)
  obtain ⟨rendering', h', hlines'⟩ := Chapter.exists_of_lines {} markup
    ["│   aa bb cc".toList] (by decide +kernel)
  refine ⟨rendering, rendering', h, h', hlines, hlines', ?_⟩
  rw [hlines, hlines']
  decide +kernel

end ChapterLayout.Excerpt
