import ChapterLayout.Proofs.Flow.Written

/-! # Two runs of one chapter

Two layouts of one chapter with different widths break its lines at different places. They stay in
step nevertheless: the blocks, the styles and the marks are those of the tokens laid out so far, and
so is the text up to its gaps.

* **`Flow.InStep`** — two states of such runs;
* **`InStep.keep`** — bookkeeping keeps them in step;
* **`InStep.newLine`**, **`InStep.paragraphBreak`** — so do the ends of lines and paragraphs;
* **`InStep.addText`**, **`InStep.addPre`** — and so does text, wherever it is wrapped. -/

namespace ChapterLayout

/-- Settings that lay out the same blocks, in lines of any width. -/
structure Settings.Alike (settings settings' : Settings) : Prop where
  typography : settings.typography = settings'.typography
  classStyles : settings.classStyles = settings'.classStyles
  asciiEntities : settings.asciiEntities = settings'.asciiEntities

instance (settings settings' : Settings) : Decidable (settings.Alike settings') :=
  decidable_of_iff (settings.typography = settings'.typography ∧
      settings.classStyles = settings'.classStyles ∧
      settings.asciiEntities = settings'.asciiEntities)
    ⟨fun h => ⟨h.1, h.2.1, h.2.2⟩, fun h => ⟨h.1, h.2, h.3⟩⟩

variable {p : Char → Bool}

/-- Blank lines set apart what comes after them, and nothing else. -/
theorem SameText.append_blanks {lines lines' : List Line} {n m : Nat} (hspace : p ' ' = true)
    (hbreak : p '\n' = true) (h : SameText p lines lines') (hn : lines = [] → n = 0)
    (hm : lines' = [] → m = 0) :
    SameText p (lines ++ List.replicate n []) (lines' ++ List.replicate m []) := by
  by_cases hnil : lines = []
  · simpa [hn hnil, hm (h.isEmpty.1 hnil)] using h
  · have hnil' : lines' ≠ [] := fun h' => hnil (h.isEmpty.2 h')
    exact (SameText.blanks hspace hbreak hnil n).symm.trans
      (h.trans (SameText.blanks hspace hbreak hnil' m))

namespace Flow

variable {settings settings' : Settings} {flow flow' a b a' b' : Flow} {word : Text}

/-! ## (1) What decides how a layout goes on -/

/-- What a token is laid out by, apart from the line that is being filled. -/
structure Control where
  context : BlockContext
  styles : Stack
  pendingMark : Text
  hasWords : Bool
  glue : Bool
  codeDepth : Nat
  preLineOpen : Bool
  preFresh : Bool

/-- What the next token is laid out by. -/
def control (flow : Flow) : Control where
  context := flow.context
  styles := flow.styles
  pendingMark := flow.pendingMark
  hasWords := flow.hasWords
  glue := flow.glue
  codeDepth := flow.codeDepth
  preLineOpen := flow.preLineOpen
  preFresh := flow.preFresh

/-- The lines, the last of which is being filled. -/
structure Filling where
  lines : List Line
  current : Line
  continuation : Text
  hasWords : Bool
  wordStart : Nat
  wordMovable : Bool

/-- The lines of a state and how the last one is filled. -/
def filling (flow : Flow) : Filling where
  lines := flow.page.lines
  current := flow.current
  continuation := flow.continuation
  hasWords := flow.hasWords
  wordStart := flow.wordStart
  wordMovable := flow.wordMovable

/-- The end of a line leaves the rest of the control as it is. -/
theorem newLine_control (h : flow.Begun settings) :
    flow.newLine.control = { flow.control with hasWords := false, glue := false } := by
  by_cases hnil : flow.current = []
  · have hw : flow.hasWords = false := h.hasWords_eq_false hnil
    by_cases hend : flow.endsInText = true
    · rw [newLine_of_endsInText hnil hend]
      simp [control, addLine, hw]
    · rw [newLine_of_not_endsInText hnil (by simpa using hend)]
      simp [control, hw]
  · rw [newLine_of_begun hnil]
    rfl

/-- Behind the end of a line there is no word. -/
theorem newLine_hasWords (h : flow.Begun settings) : flow.newLine.hasWords = false :=
  congrArg Control.hasWords (newLine_control h)

/-- The end of a line leaves the context alone. -/
theorem newLine_context (flow : Flow) : flow.newLine.context = flow.context := by
  unfold newLine
  dsimp only
  split_ifs <;> rfl

/-- Behind the end of a line nothing is continued. -/
theorem newLine_continuation (flow : Flow) : flow.newLine.continuation = [] := rfl

/-- Behind a word the line has one, and no mark is waiting. -/
theorem addWord_control (flow : Flow) (word : Text) (glue : Bool) :
    (flow.addWord settings word glue).control =
      { flow.control with pendingMark := [], hasWords := true } := by
  unfold addWord beginLine makeRoom fitWord
  dsimp only
  split_ifs <;> rfl

/-- A word that moves leaves the control as it is. -/
theorem fitWord_control (hw : flow.hasWords = true) :
    (flow.fitWord settings).control = flow.control := by
  rw [fitWord_eq]
  split
  · rfl
  · simp only [control, hw]
    rfl

/-- Bookkeeping that leaves the lines alone keeps a state ready. -/
theorem Ready.keep (h : flow.Ready p settings) (hchanges : Changes settings flow flow')
    (hplain : flow'.context.Plain p) (hfilling : flow'.filling = flow.filling) :
    flow'.Ready p settings := by
  have hbegun : flow'.Begun settings := h.begun.changes hchanges
  simp only [filling, Filling.mk.injEq] at hfilling
  obtain ⟨-, hcurrent, hcontinuation, hw, hstart, hmovable⟩ := hfilling
  refine ⟨hbegun, hplain, ?_, ?_⟩
  · rw [hcontinuation]
    exact h.continuation
  · rw [hcurrent, hw, hstart, hmovable]
    exact h.apart

/-- The gap before a word is left alone by the end of a line. -/
theorem Ready.newLine (h : flow.Ready p settings) : flow.newLine.Ready p settings := by
  refine Ready.of_bare ?_ ?_ ?_ (newLine_hasWords h.begun)
  · exact h.begun.changes (newLine_changes flow)
  · rw [newLine_context]
    exact h.plain
  · simp [newLine_continuation]

/-! ## (2) Blank lines between blocks -/

/-- The state with blank lines added to the page. -/
def addBlanks (flow : Flow) (n : Nat) : Flow :=
  { flow with page := { flow.page with lines := flow.page.lines ++ List.replicate n [] } }

/-- No blank lines do nothing. -/
theorem addBlanks_zero (flow : Flow) : flow.addBlanks 0 = flow := by simp [addBlanks]

/-- Between two lines, a new line adds a blank one at most. -/
theorem exists_newLine_blanks (h : flow.current = []) : ∃ n,
    flow.newLine.page.lines = flow.page.lines ++ List.replicate n [] ∧
      (flow.page.lines = [] → n = 0) := by
  by_cases hend : flow.endsInText = true
  · refine ⟨1, ?_, fun hnil => absurd hnil (lines_ne_nil_of_endsInText hend)⟩
    rw [newLine_of_endsInText h hend]
    rfl
  · refine ⟨0, ?_, fun _ => rfl⟩
    rw [newLine_of_not_endsInText h (by simpa using hend), List.replicate_zero, List.append_nil]

/-- The end of a paragraph adds blank lines. -/
theorem exists_paragraphBreak_blanks (settings : Settings) (flow : Flow) : ∃ n,
    flow.paragraphBreak settings = flow.newLine.addBlanks n ∧
      (flow.newLine.page.lines = [] → n = 0) := by
  unfold paragraphBreak
  by_cases hnil : flow.newLine.page.lines = []
  · refine ⟨0, ?_, fun _ => rfl⟩
    rw [addBlanks_zero]
    simp [hnil]
  · have hnil' : flow.newLine.page.lines.isEmpty = false := by simpa using hnil
    simp only [hnil', Bool.false_eq_true, if_false]
    exact ⟨_, rfl, fun h => absurd h hnil⟩

/-! ## (3) Lines of preformatted text -/

/-- The line of preformatted text that is open, or the start of one. -/
def preStart (flow : Flow) (settings : Settings) : Line :=
  if flow.preLineOpen then flow.current else flow.indent settings

/-- A piece of preformatted text is written behind the start of its line. -/
theorem addPiece_of_ne_nil {piece : Text} (h : piece ≠ []) :
    flow.addPiece settings piece =
      { flow with current := flow.preStart settings ++ piece, preLineOpen := true } := by
  simp [addPiece, preStart, h]

/-- A line of preformatted text is put on the page, and the next line is empty. -/
theorem exists_commitPre_lines (settings : Settings) (flow : Flow) : ∃ page spans,
    flow.commitPre settings =
        { flow with page, spans, current := [], hasWords := false, preLineOpen := false } ∧
      page.lines = flow.page.lines ++ [flow.preStart settings] := by
  refine ⟨(flow.commitPre settings).page, (flow.commitPre settings).spans, ?_, ?_⟩
  · unfold commitPre
    dsimp only
    split_ifs <;> rfl
  · unfold commitPre preStart
    dsimp only
    split_ifs <;> rfl

/-! ## (4) States in step -/

/-- Two states that the same tokens lead to in lines of different widths. -/
structure InStep (p : Char → Bool) (settings settings' : Settings) (a b : Flow) : Prop where
  space : p ' ' = true
  lineBreak : p '\n' = true
  alike : settings.Alike settings'
  left : a.Ready p settings
  right : b.Ready p settings'
  control : a.control = b.control
  written : Text.collapseBy p a.written = Text.collapseBy p b.written
  /-- A line without a word is the same in both, since nothing was wrapped on it. -/
  bare : a.hasWords = false → a.current = b.current ∧ SameText p a.page.lines b.page.lines

namespace InStep

variable (h : InStep p settings settings' a b)
include h

/-- Both runs are in the same context. -/
theorem context : a.context = b.context := congrArg Control.context h.control

/-- Either both runs have a word on the line or none has. -/
theorem hasWords : a.hasWords = b.hasWords := congrArg Control.hasWords h.control

/-- Both runs indent their lines alike. -/
theorem indent : a.indent settings = b.indent settings' := by
  rw [Flow.indent, Flow.indent, h.context, h.alike.typography]

/-- States that a word leads to. -/
theorem next_word (left : a'.Ready p settings) (right : b'.Ready p settings')
    (control : a'.control = b'.control) (hw : a'.hasWords = true)
    (written : Text.collapseBy p a'.written = Text.collapseBy p b'.written) :
    InStep p settings settings' a' b' :=
  { h with left, right, control, written, bare := fun hw' => absurd hw' (by simp [hw]) }

/-- States without a word on their line. -/
theorem next_bare (left : a'.Ready p settings) (right : b'.Ready p settings')
    (control : a'.control = b'.control) (hcurrent : a'.current = b'.current)
    (hlines : SameText p a'.page.lines b'.page.lines) : InStep p settings settings' a' b' where
  space := h.space
  lineBreak := h.lineBreak
  alike := h.alike
  left := left
  right := right
  control := control
  written := Text.collapseBy_append_congr h.space hlines.ended (congrArg _ hcurrent)
  bare _ := ⟨hcurrent, hlines⟩

/-- **Bookkeeping** that leaves the lines alone keeps two states in step. -/
theorem keep (left : Changes settings a a') (right : Changes settings' b b')
    (plain : a'.context.Plain p) (control : a'.control = b'.control)
    (hleft : a'.filling = a.filling) (hright : b'.filling = b.filling) :
    InStep p settings settings' a' b' where
  space := h.space
  lineBreak := h.lineBreak
  alike := h.alike
  left := h.left.keep left plain hleft
  right := by
    have hcontext : a'.context = b'.context := congrArg Control.context control
    exact h.right.keep right (hcontext ▸ plain) hright
  control := control
  written := by
    have hwritten : ∀ {c c' : Flow}, c'.filling = c.filling → c'.written = c.written :=
      fun hfill => congrArg (fun f => Text.ended f.lines ++ f.current) hfill
    rw [hwritten hleft, hwritten hright]
    exact h.written
  bare := by
    simp only [filling, Filling.mk.injEq] at hleft hright
    rw [hleft.1, hleft.2.1, hleft.2.2.2.1, hright.1, hright.2.1]
    exact h.bare

/-! ## (5) Lines -/

/-- The line is empty in both runs or in none. -/
theorem current_eq_nil : a.current = [] ↔ b.current = [] := by
  by_cases hw : a.hasWords = true
  · have hne := (h.left.begun.word hw).2.current_ne_nil
    have hne' := (h.right.begun.word (h.hasWords ▸ hw)).2.current_ne_nil
    exact ⟨fun hnil => absurd hnil hne, fun hnil => absurd hnil hne'⟩
  · rw [(h.bare (by simpa using hw)).1]

/-- The lines with the one that was being filled. -/
theorem lines_commit (hne : a.current ≠ []) :
    SameText p (a.page.lines ++ [a.current]) (b.page.lines ++ [b.current]) := by
  by_cases hw : a.hasWords = true
  · exact SameText.concat h.space h.written hne fun hnil => hne (h.current_eq_nil.2 hnil)
  · obtain ⟨hcurrent, hlines⟩ := h.bare (by simpa using hw)
    rw [hcurrent]
    exact hlines.concat_self h.space b.current

/-- The lines show the same text behind the end of a line. -/
theorem lines_newLine : SameText p a.newLine.page.lines b.newLine.page.lines := by
  by_cases hnil : a.current = []
  · -- Whether a blank line is added is up to each run: blank lines show nothing.
    obtain ⟨n, hn, hn0⟩ := exists_newLine_blanks hnil
    obtain ⟨m, hm, hm0⟩ := exists_newLine_blanks (h.current_eq_nil.1 hnil)
    rw [hn, hm]
    exact (h.bare (h.left.begun.hasWords_eq_false hnil)).2.append_blanks h.space h.lineBreak hn0 hm0
  · rw [newLine_of_begun hnil, newLine_of_begun (fun hnil' => hnil (h.current_eq_nil.2 hnil'))]
    exact h.lines_commit hnil

/-- The end of a line leads to the same control. -/
theorem newLine_control_eq : a.newLine.control = b.newLine.control := by
  rw [newLine_control h.left.begun, newLine_control h.right.begun, h.control]

/-- **The end of a line.** -/
theorem newLine : InStep p settings settings' a.newLine b.newLine :=
  h.next_bare h.left.newLine h.right.newLine h.newLine_control_eq
    (by rw [newLine_current, newLine_current]) h.lines_newLine

/-- **The end of a paragraph**, however many blank lines come after it. -/
theorem paragraphBreak :
    InStep p settings settings' (a.paragraphBreak settings) (b.paragraphBreak settings') := by
  obtain ⟨n, hn, hn0⟩ := exists_paragraphBreak_blanks settings a
  obtain ⟨m, hm, hm0⟩ := exists_paragraphBreak_blanks settings' b
  have hready : ∀ {c : Flow} {s : Settings} {k : Nat}, c.Ready p s → c.newLine.Ready p s →
      c.paragraphBreak s = c.newLine.addBlanks k → (c.newLine.addBlanks k).Ready p s := by
    intro c s k hc hnext heq
    refine Ready.of_bare ?_ hnext.plain hnext.continuation ?_
    · rw [← heq]
      exact hc.begun.changes (paragraphBreak_changes c)
    · exact newLine_hasWords hc.begun
  have hleft := hready h.left h.left.newLine hn
  have hright := hready h.right h.right.newLine hm
  rw [hn, hm]
  refine h.next_bare hleft hright h.newLine_control_eq ?_ ?_
  · exact (newLine_current a).trans (newLine_current b).symm
  · exact h.lines_newLine.append_blanks h.space h.lineBreak hn0 hm0

/-- Blocks are opened and closed between two lines. -/
theorem block (f : BlockContext → BlockContext) (hplain : (f a.context).Plain p) :
    InStep p settings settings' (a.newLine.updateContext f) (b.newLine.updateContext f) := by
  have hcontrol : (a.newLine.updateContext f).control = (b.newLine.updateContext f).control :=
    congrArg (fun c : Control => { c with context := f c.context }) h.newLine_control_eq
  refine h.newLine.keep ?_ ?_ ?_ hcontrol rfl rfl
  · exact (Change.block _ (newLine_current a) _ _ _).chain
  · exact (Change.block _ (newLine_current b) _ _ _).chain
  · show (f a.newLine.context).Plain p
    rwa [newLine_context]

/-! ## (6) Words -/

/-- **A word**, wherever it is put. -/
theorem addWord (hpre : a.context.inPre = false) (hne : word ≠ [])
    (hword : ∀ c ∈ word, Text.isFlowBlank c = false) (glue : Bool) :
    InStep p settings settings' (a.addWord settings word glue) (b.addWord settings' word glue) := by
  have hleft := h.left.addWord h.space hpre hne hword glue
  have hright := h.right.addWord h.space (h.context ▸ hpre) hne hword glue
  have hcontrol :
      (a.addWord settings word glue).control = (b.addWord settings' word glue).control := by
    rw [addWord_control, addWord_control, h.control]
  have hmark : a.pendingMark = b.pendingMark := congrArg Control.pendingMark h.control
  refine h.next_word hleft hright hcontrol (congrArg Control.hasWords (addWord_control _ _ _)) ?_
  cases hw : a.hasWords with
  | false =>
    -- Both lines are begun alike, and no word is wrapped at their start.
    obtain ⟨hcurrent, hlines⟩ := h.bare hw
    obtain ⟨hl, hc⟩ := addWord_first hw settings word glue
    obtain ⟨hl', hc'⟩ := addWord_first (h.hasWords ▸ hw) settings' word glue
    have hbegin : (a.beginLine settings).current = (b.beginLine settings').current := by
      unfold beginLine
      rw [hcurrent, h.hasWords, h.indent]
      split
      · rfl
      · exact hcurrent
    have hsep : (a.beginLine settings).separator = (b.beginLine settings').separator := by
      rw [separator, separator, hbegin]
    rw [Flow.written, Flow.written, hl, hl', hc, hc', hbegin, hsep, hmark]
    exact Text.collapseBy_append_congr h.space hlines.ended rfl
  | true =>
    -- The gap before the word may be a space in one run and a line break in the other.
    have hw' : b.hasWords = true := h.hasWords ▸ hw
    cases glue with
    | false =>
      rw [h.left.written_addWord_fresh h.space h.lineBreak hw,
        h.right.written_addWord_fresh h.space h.lineBreak hw', hmark]
      exact Text.collapseBy_append_congr h.space
        (Text.collapseBy_append_congr h.space h.written rfl) rfl
    | true =>
      rw [h.left.written_addWord_glued h.space h.lineBreak hw hne hword,
        h.right.written_addWord_glued h.space h.lineBreak hw' hne hword, hmark]
      exact Text.collapseBy_append_congr h.space h.written rfl

omit h in
/-- Words that are separated by blanks. -/
theorem addWords (ws : List Text) (hne : ∀ w ∈ ws, w ≠ [])
    (hw : ∀ w ∈ ws, ∀ c ∈ w, Text.isFlowBlank c = false) {a b : Flow}
    (h : InStep p settings settings' a b) (hpre : a.context.inPre = false) :
    InStep p settings settings' (a.addWords settings ws) (b.addWords settings' ws) := by
  induction ws generalizing a b with
  | nil => exact h
  | cons w ws ih =>
    refine ih (fun v hv => hne v (List.mem_cons_of_mem _ hv))
      (fun v hv => hw v (List.mem_cons_of_mem _ hv))
      (h.addWord hpre (hne w List.mem_cons_self) (hw w List.mem_cons_self) false) ?_
    rw [addWord_context]
    exact hpre

/-- Whether the next word is glued to the last one is decided by the tokens. -/
theorem setGlue (glue : Bool) :
    InStep p settings settings' { a with glue } { b with glue } :=
  h.keep (Change.glue a glue).chain (Change.glue b glue).chain h.left.plain
    (congrArg (fun c : Control => { c with glue }) h.control) rfl rfl

/-- **Flow text.** -/
theorem addText (hpre : a.context.inPre = false) (s : Text) :
    InStep p settings settings' (a.addText settings s) (b.addText settings' s) := by
  have hglue : a.glue = b.glue := congrArg Control.glue h.control
  unfold Flow.addText
  split
  · exact h
  · cases hwords : Text.words Text.isFlowBlank s with
    | nil => exact h.setGlue false
    | cons word words =>
      have hne : ∀ w ∈ word :: words, w ≠ [] := fun w hw =>
        Text.ne_nil_of_mem_words (hwords ▸ hw)
      have hletters : ∀ w ∈ word :: words, ∀ c ∈ w, Text.isFlowBlank c = false :=
        fun w hw c hc => Text.letter_of_mem_words (hwords ▸ hw) hc
      dsimp only
      rw [hglue]
      have hfirst := h.addWord hpre (hne word List.mem_cons_self)
        (hletters word List.mem_cons_self) (b.glue && !startsBlank s)
      refine (addWords words (fun w hw => hne w (List.mem_cons_of_mem _ hw))
        (fun w hw => hletters w (List.mem_cons_of_mem _ hw)) hfirst ?_).setGlue _
      rw [addWord_context]
      exact hpre

/-! ## (7) Preformatted text -/

/-- Lines of preformatted text start alike. -/
theorem preStart (hw : a.hasWords = false) : a.preStart settings = b.preStart settings' := by
  have hopen : a.preLineOpen = b.preLineOpen := congrArg Control.preLineOpen h.control
  rw [Flow.preStart, Flow.preStart, hopen, h.indent, (h.bare hw).1]

/-- A piece of a line of preformatted text. -/
theorem addPiece (hpre : a.context.inPre = true) {piece : Text}
    (hp : '\n' ∉ piece ∧ '\r' ∉ piece) :
    InStep p settings settings' (a.addPiece settings piece) (b.addPiece settings' piece) := by
  by_cases hne : piece = []
  · subst hne
    exact h
  · have hw : a.hasWords = false := h.left.begun.hasWords_of_inPre hpre
    have hbegun := h.left.begun.changes (addPiece_changes a hpre piece hp)
    have hbegun' := h.right.begun.changes (addPiece_changes b (h.context ▸ hpre) piece hp)
    rw [addPiece_of_ne_nil hne] at hbegun hbegun' ⊢
    rw [addPiece_of_ne_nil hne]
    exact h.next_bare (.of_bare hbegun h.left.plain h.left.continuation hw)
      (.of_bare hbegun' h.right.plain h.right.continuation (h.hasWords ▸ hw))
      (congrArg (fun c : Control => { c with preLineOpen := true }) h.control)
      (congrArg (· ++ piece) (h.preStart hw)) (h.bare hw).2

/-- The end of a line of preformatted text. -/
theorem commitPre (hpre : a.context.inPre = true) :
    InStep p settings settings' (a.commitPre settings) (b.commitPre settings') := by
  have hw : a.hasWords = false := h.left.begun.hasWords_of_inPre hpre
  have hbegun := h.left.begun.change (.commitPre a hpre)
  have hbegun' := h.right.begun.change (.commitPre b (h.context ▸ hpre))
  obtain ⟨page, spans, hcommit, hlines⟩ := exists_commitPre_lines settings a
  obtain ⟨page', spans', hcommit', hlines'⟩ := exists_commitPre_lines settings' b
  rw [hcommit] at hbegun ⊢
  rw [hcommit'] at hbegun' ⊢
  refine h.next_bare (.of_bare hbegun h.left.plain h.left.continuation rfl)
    (.of_bare hbegun' h.right.plain h.right.continuation rfl)
    (congrArg (fun c : Control => { c with preLineOpen := false, hasWords := false }) h.control)
    rfl ?_
  show SameText p page.lines page'.lines
  rw [hlines, hlines', h.preStart hw]
  exact (h.bare hw).2.concat_self h.space _

omit h in
/-- Lines of preformatted text, one after the other. -/
theorem addPieces (pieces : List Text) (hp : ∀ q ∈ pieces, '\n' ∉ q ∧ '\r' ∉ q) {a b : Flow}
    (h : InStep p settings settings' a b) (hpre : a.context.inPre = true) :
    InStep p settings settings'
      (pieces.foldl (fun flow q => (flow.commitPre settings).addPiece settings q) a)
      (pieces.foldl (fun flow q => (flow.commitPre settings').addPiece settings' q) b) := by
  induction pieces generalizing a b with
  | nil => exact h
  | cons q pieces ih =>
    have hcommit : (a.commitPre settings).context.inPre = true := by simpa using hpre
    exact ih (fun r hr => hp r (List.mem_cons_of_mem _ hr))
      ((h.commitPre hpre).addPiece hcommit (hp q List.mem_cons_self)) (by simpa using hpre)

/-- **Preformatted text.** -/
theorem addPre (hpre : a.context.inPre = true) (s : Text) :
    InStep p settings settings' (a.addPre settings s) (b.addPre settings' s) := by
  have hfresh : a.preFresh = b.preFresh := congrArg Control.preFresh h.control
  have hpieces : a.prePieces s = b.prePieces s := by rw [prePieces, prePieces, hfresh]
  have hbreak : ∀ q ∈ a.prePieces s, '\n' ∉ q ∧ '\r' ∉ q := fun q hq =>
    Text.no_break_of_mem_lines hq
  have hstart : InStep p settings settings' { a with preFresh := a.preFresh && s.isEmpty }
      { b with preFresh := b.preFresh && s.isEmpty } :=
    h.keep (Change.quiet _ _ _ _ _ _ _ _ _ _ _ _).chain (Change.quiet _ _ _ _ _ _ _ _ _ _ _ _).chain
      h.left.plain
      (congrArg (fun c : Control => { c with preFresh := c.preFresh && s.isEmpty }) h.control)
      rfl rfl
  unfold Flow.addPre
  rw [← hpieces]
  cases hcases : a.prePieces s with
  | nil => exact hstart
  | cons q pieces =>
    rw [hcases] at hbreak
    have hfirst := hstart.addPiece hpre (hbreak q List.mem_cons_self)
    refine addPieces pieces (fun r hr => hbreak r (List.mem_cons_of_mem _ hr)) hfirst ?_
    rw [addPiece_context]
    exact hpre

end InStep

end Flow

end ChapterLayout
