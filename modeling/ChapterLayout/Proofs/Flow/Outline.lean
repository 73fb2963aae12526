import ChapterLayout.Proofs.Flow.Nesting
import ChapterLayout.Proofs.Flow.PlacedWord

/-! # What the lines depend on

Styles, links, anchors, headings and notices are recorded beside the lines and decide nothing about
them. Of the open elements, a line only depends on their numbers, which tell whose end is the end of
a title. The outline of a state leaves all the rest out, and the marks of inline code, which are
put before and behind words:

* **`Flow.outline`** — what the lines depend on where text goes to the lines of the page;
* **`Flow.Blind`** — whether a step looks at nothing else;
* **`Blind.congr`** — such a step leads states with the same outline to states with the same one;
* **`blind_newLine`**, **`blind_updateContext`** — lines end, and blocks change, without looking at
  anything else;
* **`outline_addWord`** — a word with the mark before it looks at the outline only. -/

namespace ChapterLayout

/-! ## (1) Outlines -/

/-- The number of an open element, without its name. -/
def OpenElement.outline (e : OpenElement) : OpenElement := ⟨[], e.serial⟩

/-- The numbers of the open elements. -/
def Stack.outline (stack : Stack) : Stack where
  elements := stack.elements.map OpenElement.outline
  opened := stack.opened

/-- The outline of the outline of a stack is that outline. -/
@[simp] theorem Stack.outline_outline (stack : Stack) : stack.outline.outline = stack.outline := by
  simp [outline, Function.comp_def, OpenElement.outline]

namespace Flow

variable {settings : Settings} {flow a b : Flow} {f g : Flow → Flow}

/-- The state without everything that no line depends on, and without the marks of inline code. -/
def outline (flow : Flow) : Flow where
  page :=
    { lines := flow.page.lines, noJustify := flow.page.noJustify, centered := flow.page.centered }
  context := { flow.context with headingText := [] }
  styles := flow.styles.outline
  current := flow.current
  continuation := flow.continuation
  hasWords := flow.hasWords
  glue := flow.glue
  wordStart := flow.wordStart
  wordMovable := flow.wordMovable

/-- Two outlines are the same if they are up to the open elements, and these have the same
numbers. -/
theorem outline_congr (h : ({ a with styles := {} } : Flow).outline =
      ({ b with styles := {} } : Flow).outline) (hstyles : a.styles.outline = b.styles.outline) :
    a.outline = b.outline := by
  have hset : ∀ {c : Flow}, c.outline =
      { ({ c with styles := {} } : Flow).outline with styles := c.styles.outline } := rfl
  rw [hset, h, hstyles, ← hset]

/-- The outline of an outline is that outline. -/
@[simp] theorem outline_outline (flow : Flow) : flow.outline.outline = flow.outline :=
  outline_congr rfl (Stack.outline_outline _)

/-- Whether a step looks at nothing but the outline. -/
def Blind (f : Flow → Flow) : Prop := ∀ flow, (f flow).outline = (f flow.outline).outline

/-- **Blind steps** lead states with the same outline to states with the same outline. -/
theorem Blind.congr (hf : Blind f) (h : a.outline = b.outline) :
    (f a).outline = (f b).outline := by
  rw [hf a, h, ← hf b]

/-- Two steps that see the outline only do so one after the other. -/
theorem Blind.comp (hg : Blind g) (hf : Blind f) : Blind fun flow => g (f flow) := fun flow =>
  hg.congr (hf flow)

/-- Doing nothing sees the outline only. -/
theorem blind_id : Blind fun flow => flow := fun flow => (outline_outline flow).symm

/-- A step that leaves the open elements alone is blind if all the rest of it is. -/
theorem blind_of_styles (hstyles : ∀ flow, (f flow).styles = flow.styles)
    (h : ∀ flow, ({ f flow with styles := {} } : Flow).outline =
      ({ f flow.outline with styles := {} } : Flow).outline) : Blind f := fun flow => by
  refine outline_congr (h flow) ?_
  rw [hstyles, hstyles]
  exact (Stack.outline_outline _).symm

/-- A choice by the outline. -/
theorem Blind.ite {p : Flow → Prop} [DecidablePred p] (hf : Blind f) (hg : Blind g)
    (hp : ∀ flow, p flow ↔ p flow.outline) :
    Blind fun flow => if p flow then f flow else g flow := by
  intro flow
  dsimp only
  by_cases h : p flow
  · rw [if_pos h, if_pos ((hp flow).1 h)]
    exact hf flow
  · rw [if_neg h, if_neg (h ∘ (hp flow).2)]
    exact hg flow

/-! ## (2) Lines and blocks -/

/-- The end of a line sees the outline only. -/
theorem blind_newLine : Blind newLine := by
  intro flow
  refine outline_congr ?_ ?_
  · by_cases hnil : flow.current = []
    · have hnil' : flow.outline.current = [] := hnil
      by_cases hend : flow.endsInText = true
      · have hend' : flow.outline.endsInText = true := hend
        rw [newLine_of_endsInText hnil hend, newLine_of_endsInText hnil' hend']
        rfl
      · have hend : flow.endsInText = false := by simpa using hend
        have hend' : flow.outline.endsInText = false := hend
        rw [newLine_of_not_endsInText hnil hend, newLine_of_not_endsInText hnil' hend']
        rfl
    · have hnil' : flow.outline.current ≠ [] := hnil
      rw [newLine_of_begun hnil, newLine_of_begun hnil']
      rfl
  · rw [(leadsOnlyTo_newLine flow).styles, (leadsOnlyTo_newLine flow.outline).styles]
    exact (Stack.outline_outline _).symm

/-- A step that changes the open blocks by what is open. -/
theorem blind_updateContext {k : BlockContext → BlockContext}
    (h : ∀ context, { k context with headingText := [] } =
      { k { context with headingText := [] } with headingText := [] }) :
    Blind (updateContext · k) := by
  refine blind_of_styles (fun _ => rfl) fun flow => ?_
  exact congrArg (fun context =>
    { ({ flow with styles := {} } : Flow).outline with context }) (h flow.context)

/-! ## (3) Words -/

/-- Fitting the last word sees the outline only. -/
theorem blind_fitWord (settings : Settings) : Blind (fitWord · settings) := by
  have hmove : Blind moveWord := blind_of_styles (fun _ => rfl) fun _ => rfl
  exact blind_id.ite hmove fun _ => Iff.rfl

/-- Placing a word sees the outline only. -/
theorem blind_place (word : Text) : Blind (place · word) :=
  blind_of_styles (fun _ => rfl) fun _ => rfl

/-- The start of a line sees the outline only. -/
theorem blind_beginLine (settings : Settings) : Blind (beginLine · settings) := by
  have hbegin : Blind fun flow : Flow =>
      { flow with current := flow.indent settings, continuation := flow.indent settings } :=
    blind_of_styles (fun _ => rfl) fun _ => rfl
  exact hbegin.ite blind_id fun _ => Iff.rfl

/-- Making room for a word sees the outline only. -/
theorem blind_makeRoom (settings : Settings) (word : Text) : Blind (makeRoom · settings word) := by
  have hwrap : Blind fun flow : Flow => { flow.commit with current := flow.continuation } :=
    blind_of_styles (fun _ => rfl) fun _ => rfl
  have hstay : Blind fun flow : Flow => { flow with current := flow.current ++ flow.separator } :=
    blind_of_styles (fun _ => rfl) fun _ => rfl
  exact hwrap.ite hstay fun _ => Iff.rfl

/-- **A word** with the mark before it looks at the outline only. -/
theorem outline_addWord (flow : Flow) (word : Text) (glue : Bool) :
    (flow.addWord settings word glue).outline =
      (flow.outline.addWord settings (flow.pendingMark ++ word) glue).outline := by
  have hstart : Blind startWord := blind_of_styles (fun _ => rfl) fun _ => rfl
  have hbegin := blind_beginLine settings
  have hfresh := fun w =>
    (blind_place w).comp (hstart.comp ((blind_makeRoom settings w).comp hbegin))
  have hglued := fun w => (blind_fitWord settings).comp ((blind_place w).comp hbegin)
  have hword := fun w => (hglued w).ite (hfresh w)
    (p := fun flow => (glue && flow.hasWords) = true) fun _ => Iff.rfl
  exact hword (flow.pendingMark ++ word) flow.unmarked

end Flow

end ChapterLayout
