import ChapterLayout.Chapter
import ChapterLayout.Proofs.Flow.Regular
import ChapterLayout.Proofs.Justify.Page

/-! # Chapters with and without spread lines

Whether the words of full lines are spread is decided by one setting. The layout of the tokens does
not look at it (`Flow.run?_justify`), so the chapter with the setting is the chapter without it,
spread:

* **`Flow.eq_run_of_run?`** — a layout that stays within the limits is the layout of the tokens;
* **`Chapter.render_spreadOf`** — spreading the lines of a chapter changes nothing but spaces. -/

namespace ChapterLayout

namespace Flow

variable {flow flow' : Flow} {settings : Settings}

/-- A step within the limits is the step. -/
theorem eq_step_of_step? {s : Step} (h : flow.step? settings s = .ok flow') :
    flow' = flow.step settings s := by
  rw [step?] at h
  split at h
  · obtain ⟨_, _, hstep⟩ := exists_of_bind_ok h
    exact (Except.ok.inj hstep).symm
  · exact (Except.ok.inj h).symm

/-- Steps within the limits are the steps. -/
theorem eq_foldl_of_steps? {steps : List Step} (h : flow.steps? settings steps = .ok flow') :
    flow' = steps.foldl (fun flow s => flow.step settings s) flow := by
  induction steps generalizing flow with
  | nil => exact (Except.ok.inj h).symm
  | cons s steps ih =>
    obtain ⟨next, hnext, h⟩ := exists_of_bind_ok h
    rw [List.foldl_cons, ← eq_step_of_step? hnext]
    exact ih h

/-- **A layout within the limits is the layout of the tokens.** -/
theorem eq_run_of_run? {tokens : List Token} (h : run? settings tokens = .ok flow) :
    flow = run settings tokens := by
  rw [eq_foldl_of_steps? h, List.foldl_append, List.foldl_map]
  rfl

/-- The layout of tokens does not look at whether lines are to be spread. -/
theorem run?_justify (settings : Settings) (tokens : List Token) (justify : Bool) :
    run? { settings with justify } tokens = run? settings tokens := rfl

end Flow

namespace Chapter

/-- **A chapter is the layout of its tokens,** with its lines spread if the settings ask for it, and
its records moved into their lines. -/
theorem exists_of_render {settings : Settings} {markup : Text} {rendering : Rendering}
    (h : render settings markup = .ok rendering) :
    ∃ page, rendering.page = page.clamp ∧
      (page = (Flow.run settings (Token.scan markup settings.asciiEntities)).page ∨
        (Flow.run settings (Token.scan markup settings.asciiEntities)).page.justify
          settings.maxWidth settings.threshold = .ok page) := by
  obtain ⟨flow, hflow, h⟩ := exists_of_bind_ok h
  obtain ⟨page, hpage, h⟩ := exists_of_bind_ok h
  obtain rfl := Except.ok.inj h
  obtain rfl := Flow.eq_run_of_run? hflow
  refine ⟨page, rfl, ?_⟩
  unfold justify at hpage
  split at hpage
  · exact .inr hpage
  · exact .inl (Except.ok.inj hpage).symm

/-- **Spreading the lines of a chapter changes nothing but spaces.** If a chapter can be laid out
with its lines as they are and with its lines spread, the two pages have everything in common that
`Page.SpreadOf` asks for. -/
theorem render_spreadOf {settings : Settings} {markup : Text} {ragged justified : Rendering}
    (hragged : render { settings with justify := false } markup = .ok ragged)
    (hjustified : render { settings with justify := true } markup = .ok justified) :
    Page.SpreadOf settings.maxWidth ragged.page justified.page := by
  obtain ⟨flow, hflow, hragged⟩ := exists_of_bind_ok hragged
  obtain ⟨flow', hflow', hjustified⟩ := exists_of_bind_ok hjustified
  obtain ⟨page, hpage, hjustified⟩ := exists_of_bind_ok hjustified
  -- Both layouts are the same one, and its page can be spread.
  rw [Flow.run?_justify] at hflow hflow'
  obtain rfl : flow = flow' := Except.ok.inj (hflow.symm.trans hflow')
  have hspreadable : flow.page.Spreadable := by
    rw [Flow.eq_run_of_run? hflow]
    exact Flow.spreadable_run settings _
  obtain rfl := Except.ok.inj hragged
  obtain rfl := Except.ok.inj hjustified
  exact hspreadable.spreadOf hpage

/-- Twelve columns are filled by one more space, and the link moves with its word. -/
theorem render_spreadOf_full :
    let settings : Settings := { maxWidth := 12 }
    let markup := "aa <b>bb cc</b> <a href=\"u\">dd</a> ee".toList
    ∃ ragged justified, render { settings with justify := false } markup = .ok ragged ∧
      render { settings with justify := true } markup = .ok justified ∧
      ragged.page.lines = ["aa bb cc dd".toList, "ee".toList] ∧
      justified.page.lines = ["aa  bb cc dd".toList, "ee".toList] ∧
      ragged.page.links = [⟨0, 9, 11, ['u']⟩] ∧ justified.page.links = [⟨0, 10, 12, ['u']⟩] ∧
      Page.SpreadOf 12 ragged.page justified.page := by
  intro settings markup
  have hragged : (render { settings with justify := false } markup).toOption.map
      (fun r => (r.page.lines, r.page.links)) =
        some (["aa bb cc dd".toList, "ee".toList], [⟨0, 9, 11, ['u']⟩]) := by decide +kernel
  have hjustified : (render { settings with justify := true } markup).toOption.map
      (fun r => (r.page.lines, r.page.links)) =
        some (["aa  bb cc dd".toList, "ee".toList], [⟨0, 10, 12, ['u']⟩]) := by decide +kernel
  -- The renderings are known by their lines and links only, so that both are taken out of their
  -- results.
  cases hr : render { settings with justify := false } markup with
  | error e => rw [hr] at hragged; cases hragged
  | ok ragged =>
    cases hj : render { settings with justify := true } markup with
    | error e => rw [hj] at hjustified; cases hjustified
    | ok justified =>
      rw [hr] at hragged
      rw [hj] at hjustified
      obtain ⟨hlines, hlinks⟩ := Prod.mk.inj (Option.some.inj hragged)
      obtain ⟨hlines', hlinks'⟩ := Prod.mk.inj (Option.some.inj hjustified)
      exact ⟨ragged, justified, rfl, rfl, hlines, hlines', hlinks, hlinks', render_spreadOf hr hj⟩

end Chapter

end ChapterLayout
