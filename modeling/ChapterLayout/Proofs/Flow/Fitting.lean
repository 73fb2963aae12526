import ChapterLayout.Proofs.Flow.InStep
import ChapterLayout.Proofs.Flow.Marks

/-! # Lines fit, or hold a single word

A line that is filled with words is as wide as the page at most, or it is the start of a line and a
single word behind it. A word can make its line too wide when it comes first, when a piece is glued
to it, or when the mark of inline code is put behind it; every time it is alone on its line then, or
moves to the next one:

* **`BlockContext.FitsIn`** — what such a line looks like in its blocks;
* **`Flow.Fitted`** — what a state knows of the line that is being filled, so that this holds;
* **`Fitted.change`**, **`fitted_feedAll`** — every state that tokens lead to knows it;
* **`Fitted.fitsIn_current`** — the line that is being filled fits;
* **`fills_addText`**, **`fills_codeEnd`** — the lines that are filled on the way fit. -/

namespace ChapterLayout

/-! ## (1) Lines that fit -/

namespace BlockContext

/-- Whether a line may start with `start` when the lines it wraps to start with `continuation`: both
are the indentation, or the line starts with the marker of an item behind the indentation, or with
blanks in the place of that marker. -/
def StartsLine (typography : Typography) (context : BlockContext) (continuation start : Text) :
    Prop :=
  continuation = context.indent typography ∧ start = context.indent typography ∨
    ∃ marker, IsMarker context.lists marker ∧
      continuation = context.indent typography ++ List.replicate (Text.width marker) ' ' ∧
      (start = context.indent typography ++ marker ∨ start = continuation)

/-- Whether a line is as wide as the page at most, or holds a single word behind its start. -/
def FitsIn (settings : Settings) (context : BlockContext) (continuation : Text) (line : Line) :
    Prop :=
  (Text.width line : Int) ≤ settings.maxWidth ∨
    ∃ start word, context.StartsLine settings.typography continuation start ∧
      line = start ++ word ∧ ∀ c ∈ word, Text.isSpace c = false

variable {typography : Typography} {context : BlockContext} {continuation start : Text}

/-- A blank line fits. -/
theorem fitsIn_nil (settings : Settings) (context : BlockContext) (continuation : Text) :
    context.FitsIn settings continuation [] :=
  .inl (Int.le_of_lt settings.maxWidth_pos)

/-- A line may start with the indentation and wrap to lines that start with it. -/
theorem startsLine_indent (typography : Typography) (context : BlockContext) :
    context.StartsLine typography (context.indent typography) (context.indent typography) :=
  .inl ⟨rfl, rfl⟩

/-- A line wraps to lines that wrap alike. -/
theorem StartsLine.wrap (h : context.StartsLine typography continuation start) :
    context.StartsLine typography continuation continuation := by
  rcases h with ⟨hcontinuation, -⟩ | ⟨marker, hmarker, hcontinuation, -⟩
  · exact .inl ⟨hcontinuation, hcontinuation⟩
  · exact .inr ⟨marker, hmarker, hcontinuation, .inr rfl⟩

/-- A line starts like a text: with nothing, or with something that ends in a space. -/
theorem StartsLine.isStart (h : context.StartsLine typography continuation start) :
    start.IsStart := by
  have hindent := context.isStart_indent typography
  rcases h with ⟨-, rfl⟩ | ⟨marker, hmarker, rfl, rfl | rfl⟩
  · exact hindent
  · exact hindent.append hmarker.isStart
  · exact hindent.append (Text.isStart_spaces _)

end BlockContext

namespace Flow

variable {settings : Settings} {flow flow' a b c : Flow} {word : Text} {glue : Bool}

/-- The start of the lines that the line being filled wraps to. -/
def wrapStart (flow : Flow) (settings : Settings) : Text :=
  if flow.current.isEmpty then flow.indent settings else flow.continuation

/-- An empty line wraps to lines that start with the indentation. -/
theorem wrapStart_of_nil (h : flow.current = []) :
    flow.wrapStart settings = flow.indent settings := by simp [wrapStart, h]

/-- A line that was begun wraps to lines that start with its continuation. -/
theorem wrapStart_of_begun (h : flow.current ≠ []) :
    flow.wrapStart settings = flow.continuation := by simp [wrapStart, h]

/-- A line with words wraps to lines that start with its continuation. -/
theorem Begun.wrapStart (h : flow.Begun settings) (hw : flow.hasWords = true) :
    flow.wrapStart settings = flow.continuation :=
  wrapStart_of_begun (h.word hw).2.current_ne_nil

/-! ## (2) Lines with words -/

/-- What is known of a line with words, up to the width of the last one: the last word holds no
space, and what stands before it holds a word and is not too wide, or is the start of the line. -/
structure Worded (settings : Settings) (flow : Flow) : Prop where
  continuation :
    flow.context.StartsLine settings.typography flow.continuation flow.continuation
  letters : ∀ c ∈ flow.current.drop flow.wordStart, Text.isSpace c = false
  backed : flow.wordMovable = true →
    ∃ c ∈ flow.current.take flow.wordStart, Text.isSpace c = false
  beside : flow.wordMovable = true →
    (Text.width (flow.current.take flow.wordStart) : Int) ≤ settings.maxWidth
  alone : flow.wordMovable = false →
    flow.context.StartsLine settings.typography flow.continuation
      (flow.current.take flow.wordStart)

/-- What is known of the line that is being filled: a line whose last word can move is not too
wide. -/
structure Fitted (settings : Settings) (flow : Flow) : Prop where
  begun : flow.Begun settings
  worded : flow.hasWords = true → flow.Worded settings
  fits : flow.hasWords = true → flow.wordMovable = true →
    (Text.width flow.current : Int) ≤ settings.maxWidth

/-- A line without words fits. -/
theorem Fitted.of_bare (hbegun : flow.Begun settings) (hw : flow.hasWords = false) :
    flow.Fitted settings :=
  ⟨hbegun, fun h => absurd h (by simp [hw]), fun h => absurd h (by simp [hw])⟩

/-- **The line that is being filled fits,** unless it is preformatted text. -/
theorem Fitted.fitsIn_current (h : flow.Fitted settings) (hpre : flow.context.inPre = false) :
    flow.context.FitsIn settings (flow.wrapStart settings) flow.current := by
  cases hw : flow.hasWords with
  | true =>
    have hworded := h.worded hw
    rw [h.begun.wrapStart hw]
    cases hmovable : flow.wordMovable with
    | true => exact .inl (h.fits hw hmovable)
    | false =>
      exact .inr ⟨_, _, hworded.alone hmovable, (List.take_append_drop _ _).symm,
        hworded.letters⟩
  | false =>
    by_cases hnil : flow.current = []
    · rw [hnil]
      exact BlockContext.fitsIn_nil settings flow.context _
    · rw [wrapStart_of_begun hnil]
      rcases h.begun.bare hw hnil with ⟨hpre', -⟩ | ⟨marker, hmarker, hcurrent, hcontinuation⟩
      · rw [hpre] at hpre'
        cases hpre'
      · refine .inr ⟨flow.current, [], .inr ⟨marker, hmarker, hcontinuation, .inl hcurrent⟩,
          ?_, ?_⟩
        · exact (List.append_nil _).symm
        · exact fun c hc => absurd hc List.not_mem_nil

/-- A text is no narrower than its part without the spaces at its end. -/
theorem width_trimRight_le (s : Text) :
    Text.width (Text.trimRight Text.isSpace s) ≤ Text.width s := by
  obtain ⟨blanks, hs, -⟩ := Text.exists_trimRight_append s
  have hwidth := congrArg Text.width hs
  rw [Text.width_append] at hwidth
  omega

/-! ## (3) A word that grows -/

/-- A word that moves is alone on the next line. -/
theorem Worded.moveWord (h : flow.Worded settings) : flow.moveWord.Worded settings where
  continuation := h.continuation
  letters := by
    show ∀ c ∈ (flow.continuation ++ flow.current.drop flow.wordStart).drop
      flow.continuation.length, Text.isSpace c = false
    rw [List.drop_left]
    exact h.letters
  backed hmovable := absurd hmovable Bool.false_ne_true
  beside hmovable := absurd hmovable Bool.false_ne_true
  alone _ := by
    show flow.context.StartsLine settings.typography flow.continuation
      ((flow.continuation ++ flow.current.drop flow.wordStart).take flow.continuation.length)
    rw [List.take_left]
    exact h.continuation

/-- A state that is reached from a page with `lines` in a context, where lines wrap to `start`: the
lines that were put on the page on the way fit. -/
structure Fills (settings : Settings) (context : BlockContext) (start : Text) (lines : List Line)
    (flow : Flow) : Prop where
  fitted : flow.Fitted settings
  inside : flow.context = context
  wrap : flow.wrapStart settings = start
  added : ∃ new, flow.page.lines = lines ++ new ∧
    ∀ line ∈ new, context.FitsIn settings start line

/-- **A word that got too wide** moves, or is alone on its line; the line it leaves is not too
wide. -/
theorem Worded.fitWord (h : flow.Worded settings)
    (hbegun : (flow.fitWord settings).Begun settings)
    (hw : (flow.fitWord settings).hasWords = true) :
    Fills settings flow.context flow.continuation flow.page.lines (flow.fitWord settings) := by
  have hwrap := hbegun.wrapStart hw
  rw [fitWord_eq] at hbegun hwrap ⊢
  split at hbegun
  · rename_i hstays
    rw [if_pos hstays] at hwrap ⊢
    refine ⟨⟨hbegun, fun _ => h, fun _ hmovable => ?_⟩, rfl, hwrap, [], by simp, by simp⟩
    simpa [hmovable] using hstays
  · rename_i hmoves
    rw [if_neg hmoves] at hwrap ⊢
    have hmovable : flow.wordMovable = true := by
      simp only [Bool.or_eq_true, not_or, Bool.not_eq_true', Bool.not_eq_false] at hmoves
      exact hmoves.2
    refine ⟨⟨hbegun, fun _ => h.moveWord, fun _ hmovable' => ?_⟩, rfl, hwrap,
      [Text.trimRight Text.isSpace (flow.current.take flow.wordStart)], rfl, ?_⟩
    · exact absurd hmovable' Bool.false_ne_true
    · intro line hline
      rw [List.mem_singleton.1 hline]
      have hwidth := width_trimRight_le (flow.current.take flow.wordStart)
      have hbeside := h.beside hmovable
      exact .inl (by omega)

/-- A piece without spaces is put behind the last word. -/
theorem Fitted.worded_append (h : flow.Fitted settings) (hw : flow.hasWords = true) {s : Text}
    (hs : ∀ c ∈ s, Text.isSpace c = false) {flow' : Flow}
    (hcurrent : flow'.current = flow.current ++ s) (hcontext : flow'.context = flow.context)
    (hcontinuation : flow'.continuation = flow.continuation)
    (hstart : flow'.wordStart = flow.wordStart)
    (hmovable : flow'.wordMovable = flow.wordMovable) : flow'.Worded settings := by
  -- The text before the last word stays as it is, and the word only gets longer.
  have hworded := h.worded hw
  have hle : flow.wordStart ≤ flow.current.length :=
    Nat.le_of_lt (h.begun.word hw).2.wordStart_lt
  have htake : flow'.current.take flow'.wordStart = flow.current.take flow.wordStart := by
    rw [hcurrent, hstart, List.take_append_of_le_length hle]
  constructor
  · rw [hcontext, hcontinuation]
    exact hworded.continuation
  · rw [hcurrent, hstart, List.drop_append_of_le_length hle]
    intro c hc
    rcases List.mem_append.1 hc with hc | hc
    · exact hworded.letters c hc
    · exact hs c hc
  · intro hmovable'
    rw [htake]
    exact hworded.backed (hmovable ▸ hmovable')
  · intro hmovable'
    rw [htake]
    exact hworded.beside (hmovable ▸ hmovable')
  · intro hmovable'
    rw [htake, hcontext, hcontinuation]
    exact hworded.alone (hmovable ▸ hmovable')

/-! ## (4) A word that comes fresh -/

/-- A line that is begun for a word starts like every line. -/
theorem Fitted.startsLine_beginLine (h : flow.Fitted settings)
    (hpre : flow.context.inPre = false) (hw : flow.hasWords = false) :
    (flow.beginLine settings).continuation = flow.wrapStart settings ∧
      flow.context.StartsLine settings.typography (flow.wrapStart settings)
        (flow.beginLine settings).current := by
  by_cases hnil : flow.current = []
  · rw [beginLine_of_empty hw hnil, wrapStart_of_nil hnil]
    exact ⟨rfl, BlockContext.startsLine_indent _ _⟩
  · rw [beginLine_of_begun hnil, wrapStart_of_begun hnil]
    rcases h.begun.bare hw hnil with ⟨hpre', -⟩ | ⟨marker, hmarker, hcurrent, hcontinuation⟩
    · rw [hpre] at hpre'
      cases hpre'
    · exact ⟨rfl, .inr ⟨marker, hmarker, hcontinuation, .inl hcurrent⟩⟩

/-- The start of a line needs no space before a word. -/
theorem separator_of_isStart (h : flow.current.IsStart) : flow.separator = [] := by
  rcases h with hnil | hspace
  · exact separator_of_nil hnil
  · exact separator_of_space hspace

/-- Whether there is room for a word on the line that is being filled: behind other words if it is
not too wide there, and always behind the start of the line. -/
structure HasRoom (settings : Settings) (context : BlockContext) (word : Text) (flow : Flow) :
    Prop where
  inside : flow.context = context
  continuation :
    context.StartsLine settings.typography flow.continuation flow.continuation
  beside : flow.hasWords = true → (∃ c ∈ flow.current, Text.isSpace c = false) ∧
    (Text.width flow.current + Text.width word : Int) ≤ settings.maxWidth
  alone : flow.hasWords = false →
    context.StartsLine settings.typography flow.continuation flow.current

/-- A word that is placed where there is room for it. -/
theorem HasRoom.place {context : BlockContext} (h : HasRoom settings context word flow)
    (hword : ∀ c ∈ word, Text.isFlowBlank c = false)
    (hbegun : (flow.startWord.place word).Begun settings) :
    (flow.startWord.place word).Fitted settings := by
  obtain ⟨rfl, hcontinuation, hbeside, halone⟩ := h
  have htake : (flow.startWord.place word).current.take (flow.startWord.place word).wordStart =
      flow.current := List.take_left
  -- The four facts about the line are those that the room was made with, read off its text.
  refine ⟨hbegun, fun _ => ⟨hcontinuation, ?_, ?_, ?_, ?_⟩, ?_⟩
  · show ∀ c ∈ (flow.current ++ word).drop flow.current.length, Text.isSpace c = false
    rw [List.drop_left]
    exact isSpace_of_letter hword
  · intro hmovable
    rw [htake]
    exact (hbeside hmovable).1
  · intro hmovable
    have := (hbeside hmovable).2
    rw [htake]
    omega
  · intro hmovable
    rw [htake]
    exact halone hmovable
  · intro _ hmovable
    show (Text.width (flow.current ++ word) : Int) ≤ settings.maxWidth
    have := (hbeside hmovable).2
    rw [Text.width_append]
    push_cast
    exact this

/-- The lines that a word wraps to are those of the line it is placed on. -/
theorem wrapStart_place (flow : Flow) (hne : word ≠ []) :
    (flow.startWord.place word).wrapStart settings = flow.continuation :=
  wrapStart_of_begun (List.append_ne_nil_of_right_ne_nil flow.current hne)

/-- A line that is begun for a word has room for it. -/
theorem Fitted.hasRoom_beginLine (h : flow.Fitted settings) (hpre : flow.context.inPre = false)
    (hw : flow.hasWords = false) (word : Text) :
    (flow.beginLine settings).makeRoom settings word = flow.beginLine settings ∧
      HasRoom settings flow.context word (flow.beginLine settings) := by
  obtain ⟨hcontinuation, hstart⟩ := h.startsLine_beginLine hpre hw
  rw [← hcontinuation] at hstart
  have hframe : (flow.beginLine settings).hasWords = false ∧
      (flow.beginLine settings).context = flow.context := by
    unfold beginLine
    split <;> exact ⟨hw, rfl⟩
  constructor
  · rw [makeRoom_stay (.inr hframe.1), separator_of_isStart hstart.isStart, List.append_nil]
  · refine ⟨hframe.2, hstart.wrap, fun hw' => ?_, fun _ => hstart⟩
    exact absurd (hframe.1.symm.trans hw') Bool.false_ne_true

/-- Behind other words there is room for a word that is not too wide, with a space before it. -/
theorem Fitted.hasRoom_beside (h : flow.Fitted settings) (hw : flow.hasWords = true)
    (hfit : (Text.width flow.current + flow.separator.length + Text.width word : Int) ≤
      settings.maxWidth) :
    HasRoom settings flow.context word { flow with current := flow.current ++ flow.separator } := by
  obtain ⟨c, hc, hblank⟩ := (h.begun.word hw).2.getLast
  have hletter : Text.isSpace c = false := by
    rw [Text.isFlowBlank, Bool.or_eq_false_iff] at hblank
    exact hblank.1
  refine ⟨rfl, (h.worded hw).continuation, fun _ => ⟨?_, ?_⟩, fun hw' => ?_⟩
  · exact ⟨c, List.mem_append_left _ (List.mem_of_getLast? hc), hletter⟩
  · show (Text.width (flow.current ++ flow.separator) + Text.width word : Int) ≤ _
    rw [separator_of_letter hc hblank] at hfit ⊢
    rw [Text.width_append]
    have hone : Text.width [' '] = 1 := rfl
    rw [hone]
    push_cast at hfit ⊢
    exact hfit
  · have hw'' : flow.hasWords = false := hw'
    rw [hw] at hw''
    cases hw''

/-- **A fresh word** stands behind the start of its line, or behind other words on a line that has
room for it; the line it has no room on is complete. -/
theorem Fitted.fresh (h : flow.Fitted settings) (hpre : flow.context.inPre = false)
    (hne : word ≠ []) (hword : ∀ c ∈ word, Text.isFlowBlank c = false)
    (hbegun : (((flow.beginLine settings).makeRoom settings word).startWord.place word).Begun
      settings) :
    Fills settings flow.context (flow.wrapStart settings) flow.page.lines
      (((flow.beginLine settings).makeRoom settings word).startWord.place word) := by
  cases hw : flow.hasWords with
  | false =>
    obtain ⟨hroom, hhas⟩ := h.hasRoom_beginLine hpre hw word
    have hcontinuation := (h.startsLine_beginLine hpre hw).1
    have hpage : (flow.beginLine settings).page = flow.page := by
      unfold beginLine
      split <;> rfl
    rw [hroom] at hbegun ⊢
    refine ⟨hhas.place hword hbegun, hhas.inside, ?_, [], ?_, by simp⟩
    · rw [wrapStart_place _ hne, hcontinuation]
    · rw [List.append_nil]
      show (flow.beginLine settings).page.lines = flow.page.lines
      rw [hpage]
  | true =>
    rw [h.begun.wrapStart hw]
    rw [beginLine_of_hasWords hw] at hbegun ⊢
    by_cases hfit : (Text.width flow.current + flow.separator.length + Text.width word : Int) ≤
        settings.maxWidth
    · -- The line has room for the word.
      rw [makeRoom_stay (.inl hfit)] at hbegun ⊢
      exact ⟨(h.hasRoom_beside hw hfit).place hword hbegun, rfl, wrapStart_place _ hne, [],
        (List.append_nil _).symm, by simp⟩
    · -- The line is complete, and the word starts the next one.
      have hcontinuation := (h.worded hw).continuation
      rw [makeRoom_wrap (by omega) hw] at hbegun ⊢
      have hhas : HasRoom settings flow.context word
          { flow.commit with current := flow.continuation } :=
        ⟨rfl, hcontinuation, fun hw' => absurd hw' Bool.false_ne_true, fun _ => hcontinuation⟩
      refine ⟨hhas.place hword hbegun, rfl, wrapStart_place _ hne, [flow.current], rfl, ?_⟩
      intro line hline
      rw [List.mem_singleton.1 hline, ← h.begun.wrapStart hw]
      exact h.fitsIn_current hpre

/-! ## (5) Changes -/

/-- A state fills nothing by itself. -/
theorem Fitted.fills (h : flow.Fitted settings) :
    Fills settings flow.context (flow.wrapStart settings) flow.page.lines flow :=
  ⟨h, rfl, rfl, [], (List.append_nil _).symm, by simp⟩

/-- Two fillings, one behind the other, fill the lines behind the same start. -/
theorem Fills.trans {context : BlockContext} {start : Text} {lines : List Line}
    (ha : Fills settings context start lines a)
    (hb : Fills settings a.context (a.wrapStart settings) a.page.lines b) :
    Fills settings context start lines b := by
  obtain ⟨-, rfl, rfl, new, hnew, hfits⟩ := ha
  obtain ⟨hfitted, hcontext, hwrap, new', hnew', hfits'⟩ := hb
  refine ⟨hfitted, hcontext, hwrap, new ++ new', ?_, fun line hline => ?_⟩
  · rw [hnew', hnew, List.append_assoc]
  · rcases List.mem_append.1 hline with hline | hline
    · exact hfits line hline
    · exact hfits' line hline

/-- Where no line starts otherwise, what is known of the line depends on the line only. -/
theorem Fitted.of_line (h : flow.Fitted settings) (hbegun : flow'.Begun settings)
    (hstarts : ∀ continuation start,
      flow.context.StartsLine settings.typography continuation start →
        flow'.context.StartsLine settings.typography continuation start)
    (hline : (flow'.current, flow'.continuation, flow'.hasWords, flow'.wordStart,
        flow'.wordMovable) =
      (flow.current, flow.continuation, flow.hasWords, flow.wordStart, flow.wordMovable)) :
    flow'.Fitted settings := by
  simp only [Prod.mk.injEq] at hline
  obtain ⟨hcurrent, hcontinuation, hw, hstart, hmovable⟩ := hline
  constructor
  · exact hbegun
  · intro hw'
    have hworded := h.worded (hw ▸ hw')
    constructor
    · rw [hcontinuation]
      exact hstarts _ _ hworded.continuation
    · rw [hcurrent, hstart]
      exact hworded.letters
    · rw [hcurrent, hstart, hmovable]
      exact hworded.backed
    · rw [hcurrent, hstart, hmovable]
      exact hworded.beside
    · rw [hcurrent, hstart, hmovable, hcontinuation]
      exact fun halone => hstarts _ _ (hworded.alone halone)
  · rw [hw, hmovable, hcurrent]
    exact h.fits

/-- The mark that is pending does not matter for the line. -/
theorem Fitted.unmarked (h : flow.Fitted settings) : flow.unmarked.Fitted settings :=
  h.of_line ⟨.inl rfl, h.begun.word, h.begun.bare⟩ (fun _ _ => id) rfl

/-- **A word** fills lines that fit. -/
theorem fills_addWord (h : flow.Fitted settings) (hpre : flow.context.inPre = false)
    (hne : word ≠ []) (hword : ∀ c ∈ word, Text.isFlowBlank c = false) (glue : Bool) :
    Fills settings flow.context (flow.wrapStart settings) flow.page.lines
      (flow.addWord settings word glue) := by
  have hbegun : (flow.addWord settings word glue).Begun settings :=
    h.begun.change (.word flow hpre word hne hword glue)
  have hletters := mark_isLetter h.begun.pendingMark hword
  have hne' : flow.pendingMark ++ word ≠ [] := by simp [hne]
  by_cases hglue : (glue && flow.hasWords) = true
  · obtain ⟨rfl, hw⟩ := Bool.and_eq_true_iff.1 hglue
    have hwords : (flow.addWord settings word true).hasWords = true :=
      (holdsWord_addWord h.begun.pendingMark (fun hw => (h.begun.word hw).2) hne hword).hasWords
    rw [addWord_glued hw] at hbegun hwords ⊢
    have hworded : (flow.unmarked.place (flow.pendingMark ++ word)).Worded settings :=
      h.worded_append hw (isSpace_of_letter hletters) rfl rfl rfl rfl rfl
    rw [h.begun.wrapStart hw]
    exact hworded.fitWord hbegun hwords
  · rw [addWord_fresh (by simpa using hglue)] at hbegun ⊢
    exact h.unmarked.fresh hpre hne' hletters hbegun

/-- **The mark that ends inline code** is put behind the last word, and the lines still fit. -/
theorem fills_codeEnd (h : flow.Fitted settings) (hw : flow.hasWords = true) :
    Fills settings flow.context (flow.wrapStart settings) flow.page.lines
      (flow.atCodeEnd.fitWord settings) := by
  have hbegun : (flow.atCodeEnd.fitWord settings).Begun settings :=
    h.begun.change (.codeEnd flow hw)
  have hworded : flow.atCodeEnd.Worded settings :=
    h.worded_append hw isSpace_codeMark rfl rfl rfl rfl rfl
  rw [h.begun.wrapStart hw]
  exact hworded.fitWord hbegun (h.begun.word hw).2.atCodeEnd.fitWord.hasWords

/-- **Changes keep what is known of the line.** -/
theorem Fitted.change (hc : Change settings flow flow') (h : flow.Fitted settings) :
    flow'.Fitted settings := by
  have hbegun : flow'.Begun settings := h.begun.change hc
  cases hc with
  -- Bookkeeping does not look at the line.
  | quiet => exact h.of_line hbegun (fun _ _ => id) rfl
  | anchor attributes =>
    obtain ⟨anchors, hanchors⟩ := exists_recordAnchor flow attributes
    rw [hanchors] at hbegun ⊢
    exact h.of_line hbegun (fun _ _ => id) rfl
  | heading => exact h.of_line hbegun (fun _ _ => id) rfl
  | headingLine => exact h.of_line hbegun (fun _ _ => id) rfl
  | pendingMark => exact h.of_line hbegun (fun _ _ => id) rfl
  | leavePre => exact h.of_line hbegun (fun _ _ => id) rfl
  -- Between two lines there is nothing to know.
  | commit => exact .of_bare hbegun rfl
  | blank hnil => exact .of_bare hbegun (h.begun.hasWords_eq_false hnil)
  | reset hnil => exact .of_bare hbegun (h.begun.hasWords_eq_false hnil)
  | block hnil => exact .of_bare hbegun (h.begun.hasWords_eq_false hnil)
  | item =>
    refine .of_bare hbegun ?_
    unfold atItem
    dsimp only
    split <;> rfl
  | image => exact .of_bare hbegun rfl
  | rule => exact .of_bare hbegun rfl
  | tableLine hnil => exact .of_bare hbegun (h.begun.hasWords_eq_false hnil)
  -- No word is laid out in preformatted text.
  | piece hpre piece hne =>
    refine .of_bare hbegun ?_
    rw [addPiece_of_ne_nil hne]
    exact h.begun.hasWords_of_inPre hpre
  | commitPre =>
    obtain ⟨page, spans, heq, -⟩ := exists_commitPre_lines settings flow
    rw [heq] at hbegun ⊢
    exact .of_bare hbegun rfl
  | word hpre word hne hword glue => exact (fills_addWord h hpre hne hword glue).fitted
  | codeEnd hw => exact (fills_codeEnd h hw).fitted

/-- Chains of changes keep it. -/
theorem Fitted.changes (h : flow.Fitted settings)
    (hc : Changes settings flow flow') : flow'.Fitted settings :=
  hc.preserves (fun hc h => h.change hc) h

/-- **Every state that tokens lead to knows it.** -/
theorem fitted_feedAll (settings : Settings) (tokens : List Token) :
    (feedAll {} settings tokens).Fitted settings :=
  feedAll_invariant (.of_bare (begun_of_empty (Or.inl rfl) rfl rfl) rfl) (fun hc h => h.change hc)
    tokens

/-! ## (6) Text -/

/-- Setting the glue fills nothing. -/
theorem Fills.setGlue {context : BlockContext} {start : Text} {lines : List Line}
    (h : Fills settings context start lines b) (glue : Bool) :
    Fills settings context start lines { b with glue } :=
  ⟨h.fitted.change (.glue b glue), h.inside, h.wrap, h.added⟩

/-- **Text** fills lines that fit. -/
theorem fills_addText (h : flow.Fitted settings) (hpre : flow.context.inPre = false) (s : Text) :
    Fills settings flow.context (flow.wrapStart settings) flow.page.lines
      (flow.addText settings s) := by
  refine addText_preserves s (fun glue h => h.setGlue glue) ?_ h.fills
  intro a w glue hcontext hne hletter hfills
  exact hfills.trans (fills_addWord hfills.fitted (hcontext ▸ hpre) hne hletter glue)

end Flow

end ChapterLayout
