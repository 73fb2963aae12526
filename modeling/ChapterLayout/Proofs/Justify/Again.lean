import ChapterLayout.Proofs.Chapter

/-! # Spreading lines again

A line that was spread takes exactly the width it was spread to, so it is not spread a second time,
and a line that was left alone is left alone again:

* **`Page.LinesTrimmed.justify`** — spreading puts no space at the end of a line, so pages can be
  spread to one width after another;
* **`Page.LinesTrimmed.justify_again`** — spreading a second time only forgets the column maps;
* **`Chapter.render_justify_again`** — this holds of every chapter, whether its lines were spread or
  not. -/

namespace ChapterLayout

variable {line new : Line} {maxWidth : Int} {threshold : Threshold}

/-! ## (1) Lines -/

namespace Stretch

/-- A line of stretches does not end in a space. -/
theorem Separated.getLast?_laid {l : List Stretch} (h : Separated l) (width : Stretch → Nat) :
    (laid width l).getLast? ≠ some ' ' := by
  induction l with
  | nil => simp
  | cons s l ih =>
    have hne : s.word ++ laid width l ≠ [] := by simp [h.head.ne_nil]
    rw [laid_cons, List.getLast?_append_of_ne_nil _ hne]
    by_cases hl : laid width l = []
    · rw [hl, List.append_nil]
      intro hlast
      exact absurd (h.head.letter _ (List.mem_of_getLast? hlast)) (by decide)
    · rw [List.getLast?_append_of_ne_nil _ hl]
      exact ih h.tail

end Stretch

/-- A full line that is as wide as the page is not spread. -/
theorem isJustifiable_of_width {other : Line}
    (h : isJustifiable line maxWidth threshold = .ok true) (hwidth : Text.width other = maxWidth) :
    isJustifiable other maxWidth threshold = .ok false := by
  -- The least width could be computed for the other line, and does not depend on the line.
  obtain ⟨least, hleast⟩ : ∃ least, threshold.leastWidth maxWidth = .ok least := by
    rw [isJustifiable] at h
    split at h
    · cases h
    · obtain ⟨least, hleast, -⟩ := exists_of_bind_ok h
      exact ⟨least, hleast⟩
  rw [isJustifiable, hleast]
  split
  · rfl
  · have hfull : ¬(Text.width other : Int) < maxWidth := by omega
    simp [bind, Except.bind, pure, Except.pure, hfull]

namespace Page

variable {page justified : Page} {index : Int}

/-- What `justifyLine?` does not look at. -/
theorem justifyLine?_congr {page' : Page} (h : page'.noJustify = page.noJustify) :
    page'.justifyLine? maxWidth threshold index line =
      page.justifyLine? maxWidth threshold index line := by
  rw [justifyLine?, justifyLine?, h]

/-- **A line that was spread is left alone** the second time. -/
theorem justifyLine?_spread {map : ColumnMap}
    (h : page.justifyLine? maxWidth threshold index line = .ok (some (new, map)))
    (htrimmed : index ∈ page.noJustify ∨ line.getLast? ≠ some ' ') :
    page.justifyLine? maxWidth threshold index new = .ok none := by
  obtain ⟨hexempt, hspread⟩ := justifyLine?_eq h
  obtain ⟨-, -, -, -, -, -, -, hwidth⟩ :=
    Stretch.exists_stretches_of_spread hspread (htrimmed.resolve_left hexempt)
  have hcontains : ¬page.noJustify.contains index = true := by simpa using hexempt
  rw [justifyLine?, if_neg hcontains] at h ⊢
  obtain ⟨fits, hfits, h⟩ := exists_of_bind_ok h
  cases fits with
  | false => cases h
  | true =>
    rw [isJustifiable_of_width hfits hwidth]
    rfl

/-! ## (2) Pages -/

/-- Justifying lines again leaves all of them as they are, without column maps. -/
theorem justifyLines_again {page' : Page} (hexempt : page'.noJustify = page.noJustify)
    {lines : List Line} {result : List (Line × Option ColumnMap)}
    (h : page.justifyLines maxWidth threshold index lines = .ok result)
    (htrimmed : ∀ (n : Nat) (line : Line), lines[n]? = some line →
      index + n ∈ page.noJustify ∨ line.getLast? ≠ some ' ') :
    page'.justifyLines maxWidth threshold index (result.map (·.1)) =
      .ok ((result.map (·.1)).map fun line => (line, none)) := by
  induction lines generalizing index result with
  | nil =>
    obtain rfl := Except.ok.inj h
    rfl
  | cons line lines ih =>
    obtain ⟨first, hfirst, h⟩ := exists_of_bind_ok h
    obtain ⟨rest, hrest, h⟩ := exists_of_bind_ok h
    have hagain := ih hrest fun n line hline => by
      have hnext := htrimmed (n + 1) line hline
      rwa [Int.natCast_succ, Int.add_comm n 1, ← Int.add_assoc] at hnext
    -- Whatever became of the first line, it stays as it is.
    obtain ⟨new, map, rfl, hnew⟩ : ∃ new map, result = (new, map) :: rest ∧
        page.justifyLine? maxWidth threshold index new = .ok none := by
      cases first with
      | none => exact ⟨line, none, (Except.ok.inj h).symm, hfirst⟩
      | some spread =>
        have hline := htrimmed 0 line rfl
        rw [Int.natCast_zero, Int.add_zero] at hline
        exact ⟨spread.1, some spread.2, (Except.ok.inj h).symm, justifyLine?_spread hfirst hline⟩
    rw [List.map_cons, List.map_cons, justifyLines, justifyLine?_congr hexempt, hnew, hagain]
    rfl

/-- Lines that were left alone have no column maps. -/
theorem numberMaps_none {α : Type} (index : Int) (l : List α) :
    numberMaps index (l.map fun _ => none) = [] := by
  induction l generalizing index with
  | nil => rfl
  | cons _ l ih => exact ih (index + 1)

/-- If all lines are left alone, so are the records. -/
theorem justify_of_kept (h : page.justifyLines maxWidth threshold 0 page.lines =
    .ok (page.lines.map fun line => (line, none))) :
    page.justify maxWidth threshold = .ok { page with columnMaps := [] } := by
  have hmaps : numberMaps 0 ((page.lines.map fun line => (line, (none : Option ColumnMap))).map
      (·.2)) = [] := by
    rw [List.map_map]
    exact numberMaps_none 0 page.lines
  have hlines : (page.lines.map fun line => (line, (none : Option ColumnMap))).map (·.1) =
      page.lines := by
    rw [List.map_map]
    exact List.map_id page.lines
  have hrecords {ρ : Type} [Positioned ρ] (records : List ρ) :
      records.map (moveRecord []) = records := List.map_id records
  rw [justify, h]
  simp only [bind, Except.bind, pure, Except.pure, hmaps, hlines, hrecords]

/-- **Spreading puts no space at the end of a line.** -/
theorem LinesTrimmed.justify (htrimmed : page.LinesTrimmed)
    (h : page.justify maxWidth threshold = .ok justified) : justified.LinesTrimmed := by
  obtain ⟨lines, maps, hlines, rfl⟩ := exists_of_justify h
  intro n other hother
  have hn : n < page.lines.length := hlines.length ▸ (List.getElem?_eq_some_iff.1 hother).1
  obtain ⟨new, hnew, hfate⟩ := hlines.line n _ (List.getElem?_eq_getElem hn)
  obtain rfl : new = other := Option.some.inj (hnew.symm.trans hother)
  have hline := htrimmed n _ (List.getElem?_eq_getElem hn)
  generalize maps.lookup (n : Int) = map at hfate
  cases hfate with
  | kept => exact hline
  | spread hexempt hspread =>
    obtain ⟨s, l, hsep, -, -, rfl, -, -⟩ :=
      Stretch.exists_stretches_of_spread hspread (hline.resolve_left hexempt)
    exact .inr (hsep.getLast?_laid _)

/-- **Spreading the lines of a page a second time** only forgets the column maps. -/
theorem LinesTrimmed.justify_again (htrimmed : page.LinesTrimmed)
    (h : page.justify maxWidth threshold = .ok justified) :
    justified.justify maxWidth threshold = .ok { justified with columnMaps := [] } := by
  obtain ⟨result, hresult, h⟩ := exists_of_bind_ok h
  have hjustified := (Except.ok.inj h).symm
  have hlines : justified.lines = result.map (·.1) := by rw [hjustified]
  have hexempt : justified.noJustify = page.noJustify := by rw [hjustified]
  apply justify_of_kept
  rw [hlines]
  refine justifyLines_again hexempt hresult fun n line hline => ?_
  rw [Int.zero_add]
  exact htrimmed n line hline

end Page

/-! ## (3) Chapters -/

namespace Chapter

/-- The lines of a chapter that may be spread do not end in a space. -/
theorem linesTrimmed_of_render {settings : Settings} {markup : Text} {rendering : Rendering}
    (h : render settings markup = .ok rendering) : rendering.page.LinesTrimmed := by
  obtain ⟨page, hpage, hlayout⟩ := exists_of_render h
  have hrun := (Flow.spreadable_run settings (Token.scan markup settings.asciiEntities)).lines
  have htrimmed : page.LinesTrimmed := by
    rcases hlayout with rfl | hjustify
    · exact hrun
    · exact hrun.justify hjustify
  rw [hpage]
  exact htrimmed

/-- **Spreading the lines of a chapter a second time changes nothing.** Whatever width the lines are
spread to, and whether they were spread when the chapter was laid out or not, the same call once
more returns, and only forgets the column maps. -/
theorem render_justify_again {settings : Settings} {markup : Text} {rendering : Rendering}
    (hrender : render settings markup = .ok rendering) {maxWidth : Int} {threshold : Threshold}
    {justified : Page} (hjustify : rendering.page.justify maxWidth threshold = .ok justified) :
    justified.justify maxWidth threshold = .ok { justified with columnMaps := [] } :=
  (linesTrimmed_of_render hrender).justify_again hjustify

/-- A chapter of twelve columns whose full line is spread to fourteen columns, twice. -/
theorem render_justify_again_wider :
    let settings : Settings := { maxWidth := 12, justify := true }
    let markup := "aa <b>bb cc</b> <a href=\"u\">dd</a> ee".toList
    ∃ rendering justified, render settings markup = .ok rendering ∧
      rendering.page.lines = ["aa  bb cc dd".toList, "ee".toList] ∧
      rendering.page.justify 14 = .ok justified ∧
      justified.lines = ["aa   bb  cc dd".toList, "ee".toList] ∧
      justified.links = [⟨0, 12, 14, ['u']⟩] ∧
      justified.justify 14 = .ok { justified with columnMaps := [] } := by
  intro settings markup
  have hlines : (render settings markup).toOption.map (fun r => r.page.lines) =
      some ["aa  bb cc dd".toList, "ee".toList] := by decide +kernel
  have hwider : (render settings markup).toOption.bind (fun r =>
      (r.page.justify 14).toOption.map fun p => (p.lines, p.links)) =
        some (["aa   bb  cc dd".toList, "ee".toList], [⟨0, 12, 14, ['u']⟩]) := by decide +kernel
  -- The renderings are known by their lines only, so that both are taken out of their results.
  cases hr : render settings markup with
  | error e => rw [hr] at hlines; cases hlines
  | ok rendering =>
    rw [hr] at hlines hwider
    cases hj : rendering.page.justify 14 with
    | error e => simp [hj, Except.toOption] at hwider
    | ok justified =>
      simp only [Except.toOption, Option.bind_some, hj, Option.map_some, Option.some.injEq,
        Prod.mk.injEq] at hwider
      exact ⟨rendering, justified, rfl, Option.some.inj hlines, hj, hwider.1, hwider.2,
        render_justify_again hr hj⟩

end Chapter

end ChapterLayout
