import Mathlib.Logic.Relation
import ChapterLayout.Flow.Run
import ChapterLayout.Proofs.Flow.Word
import ChapterLayout.Proofs.Text.Lines
import ChapterLayout.Proofs.Text.Words

/-! # The changes a layout run is made of

Laying out a token takes the state through a chain of elementary changes. `Flow.Change` lists them
with the conditions under which they occur, and `Flow.Changes` is a chain of them:

* **`Changes.preserves`** — what every change preserves holds after a chain if it held before;
* **`addText_preserves`**, **`addPre_preserves`** — what words, or pieces of preformatted text,
  preserve, a text preserves;
* **`newLine_changes`**, **`addText_changes`**, **`addPre_changes`**, … — every operation that
  tokens are laid out with is a chain of changes.

The conditions carry what invariants need: the open blocks change only where no line is begun, words
are laid out only outside preformatted text, and lines of their own only where no line is begun. -/

namespace ChapterLayout

/-- Tags inside a table do not open it. -/
theorem TableDraft.update_inTable (table : TableDraft) (name : Text) (closing : Bool) :
    (table.update name closing).inTable = table.inTable := by
  have hpart : ∀ part, (table.updatePart closing part).inTable = table.inTable := by
    intro part
    cases part <;> cases closing <;> rfl
  unfold update
  split
  · split
    · exact hpart _
    · rfl
  · rfl

namespace Flow

/-- The line that an item begins, with its marker. The line before it is ended already. -/
def atItem (flow : Flow) (settings : Settings) : Flow :=
  let indent := flow.indent settings
  let marker := flow.context.nextMarker
  let current := indent ++ marker.1
  let flow :=
    { flow with
      context := marker.2
      current
      continuation := indent ++ List.replicate (Text.width marker.1) ' '
      hasWords := false }
  if marker.1.isEmpty then flow else flow.addSpan indent.length current.length Group.listItem

/-- The last word with the mark that ends inline code. -/
def atCodeEnd (flow : Flow) : Flow :=
  { flow.addSpan flow.current.length (flow.current.length + 1) Group.code with
    current := flow.current ++ ['\x60'] }

/-- The line of an image, with its record. -/
def atImage (flow : Flow) (settings : Settings) (source alt : Text) : Flow :=
  let indent := flow.indent settings
  let line := indent ++ imageLabel alt
  let next := flow.commitBlock line Group.image
  { next with page := { next.page with
      images := next.page.images ++ [⟨flow.lineIndex, indent.length, line.length, source, alt⟩] } }

/-- The elementary changes of the state of a layout run. -/
inductive Change (settings : Settings) : Flow → Flow → Prop
  /-- Bookkeeping on which no line and no record depends. -/
  | quiet (flow : Flow) (styles : Stack) (notices : List Notice) (table : TableDraft)
      (headingText : Text) (titleSerial : Option Nat) (inHead : Bool)
      (rawDepth codeDepth nestedTables : Nat) (glue preFresh : Bool) :
      Change settings flow
        { flow with
          styles, notices, codeDepth, nestedTables, glue, preFresh
          context := { flow.context with table, headingText, titleSerial, inHead, rawDepth } }
  | anchor (flow : Flow) (attributes : List Attribute) :
      Change settings flow (flow.recordAnchor attributes)
  | heading (flow : Flow) (level : Int) (text : Text) :
      Change settings flow
        { flow with page := { flow.page with
            headings := flow.page.headings ++ [⟨level, text, flow.headingLine⟩] } }
  | headingLine (flow : Flow) : Change settings flow { flow with headingLine := flow.lineIndex }
  /-- The mark of inline code is set before a word, or taken back. -/
  | pendingMark (flow : Flow) (mark : Text) (h : mark = [] ∨ mark = ['\x60']) :
      Change settings flow { flow with pendingMark := mark }
  | commit (flow : Flow) (h : flow.current ≠ []) : Change settings flow flow.commit
  | blank (flow : Flow) (h : flow.current = []) (hl : flow.page.lines ≠ []) :
      Change settings flow (flow.addLine [])
  /-- Nothing is left of the block before. -/
  | reset (flow : Flow) (h : flow.current = []) :
      Change settings flow { flow with continuation := [], glue := false }
  /-- Blocks are opened or closed between two lines. -/
  | block (flow : Flow) (h : flow.current = []) (context : BlockContext)
      (preFresh preLineOpen : Bool) :
      Change settings flow { flow with context, preFresh, preLineOpen }
  /-- Preformatted text ends, and no line of it is open. -/
  | leavePre (flow : Flow) (h : flow.preLineOpen = false) :
      Change settings flow { flow with context := { flow.context with inPre := false } }
  | item (flow : Flow) (h : flow.current = []) : Change settings flow (flow.atItem settings)
  | word (flow : Flow) (hpre : flow.context.inPre = false) (word : Text) (hne : word ≠ [])
      (hw : ∀ c ∈ word, Text.isFlowBlank c = false) (glue : Bool) :
      Change settings flow (flow.addWord settings word glue)
  | codeEnd (flow : Flow) (h : flow.hasWords = true) :
      Change settings flow (flow.atCodeEnd.fitWord settings)
  | piece (flow : Flow) (hpre : flow.context.inPre = true) (piece : Text) (hne : piece ≠ [])
      (hp : '\n' ∉ piece ∧ '\r' ∉ piece) : Change settings flow (flow.addPiece settings piece)
  | commitPre (flow : Flow) (hpre : flow.context.inPre = true) :
      Change settings flow (flow.commitPre settings)
  | image (flow : Flow) (h : flow.current = []) (source alt : Text) :
      Change settings flow (flow.atImage settings source alt)
  | rule (flow : Flow) (h : flow.current = []) (width : Nat) (hw : 0 < width) :
      Change settings flow
        (flow.commitBlock (flow.indent settings ++ List.replicate width '─') Group.rule)
  | tableLine (flow : Flow) (h : flow.current = []) (line : Line) :
      Change settings flow ((flow.exempt flow.lineIndex).addLine line)

/-- A chain of changes. -/
abbrev Changes (settings : Settings) : Flow → Flow → Prop := Relation.ReflTransGen (Change settings)

/-- **Invariants of a chain.** What every change preserves, a chain of changes preserves. -/
theorem Changes.preserves {settings : Settings} {P : Flow → Prop}
    (step : ∀ {a b : Flow}, Change settings a b → P a → P b) {flow flow' : Flow}
    (h : Changes settings flow flow') (hP : P flow) : P flow' := by
  induction h with
  | refl => exact hP
  | tail _ hb ih => exact step hb ih

variable {settings : Settings} {flow flow' : Flow}

/-- A single change is a chain. -/
theorem Change.chain {a b : Flow} (h : Change settings a b) : Changes settings a b :=
  Relation.ReflTransGen.single h

/-- Recording an anchor changes the anchors only. -/
theorem exists_recordAnchor (flow : Flow) (attributes : List Attribute) :
    ∃ anchors, flow.recordAnchor attributes =
      { flow with page := { flow.page with anchors } } := by
  unfold recordAnchor
  split
  · exact ⟨flow.page.anchors, rfl⟩
  · -- The first element of a name keeps its anchor.
    split
    · exact ⟨flow.page.anchors, rfl⟩
    · exact ⟨_, rfl⟩

/-! ## (1) Lines -/

/-- Behind a committed line the next one is empty. -/
@[simp] theorem commit_current (flow : Flow) : flow.commit.current = [] := rfl

/-- A line that is begun is committed. -/
theorem newLine_of_begun (h : flow.current ≠ []) :
    flow.newLine = { flow.commit with continuation := [], glue := false } := by
  simp [newLine, h]

/-- After a line with text a blank line is added. -/
theorem newLine_of_endsInText (h : flow.current = []) (he : flow.endsInText = true) :
    flow.newLine = { flow.addLine [] with continuation := [], glue := false } := by
  simp [newLine, h, he]

/-- After a blank line, and at the start of the page, no line is added. -/
theorem newLine_of_not_endsInText (h : flow.current = []) (he : flow.endsInText = false) :
    flow.newLine = { flow with continuation := [], glue := false } := by
  simp [newLine, h, he]

/-- After `newLine` no line is begun. -/
@[simp] theorem newLine_current (flow : Flow) : flow.newLine.current = [] := by
  by_cases h : flow.current = []
  · by_cases he : flow.endsInText = true
    · rw [newLine_of_endsInText h he]
      exact h
    · rw [newLine_of_not_endsInText h (by simpa using he)]
      exact h
  · rw [newLine_of_begun h]
    rfl

/-- The page is not empty if its last line is not blank. -/
theorem lines_ne_nil_of_endsInText (h : flow.endsInText = true) : flow.page.lines ≠ [] := by
  intro hnil
  simp [endsInText, hnil] at h

/-- The end of a line is a chain of changes. -/
theorem newLine_changes (flow : Flow) : Changes settings flow flow.newLine := by
  by_cases h : flow.current = []
  · by_cases he : flow.endsInText = true
    · rw [newLine_of_endsInText h he]
      exact (Change.blank flow h (lines_ne_nil_of_endsInText he)).chain.tail (.reset _ h)
    · rw [newLine_of_not_endsInText h (by simpa using he)]
      exact (Change.reset _ h).chain
  · rw [newLine_of_begun h]
    exact (Change.commit flow h).chain.tail (.reset _ rfl)

/-- Blank lines are added one after the other. -/
theorem addBlanks_changes (flow : Flow) (h : flow.current = []) (hl : flow.page.lines ≠ [])
    (n : Nat) :
    Changes settings flow
      { flow with page := { flow.page with
          lines := flow.page.lines ++ List.replicate n [] } } := by
  induction n with
  | zero => simpa using Relation.ReflTransGen.refl
  | succ n ih =>
    rw [List.replicate_succ', ← List.append_assoc]
    exact ih.tail (.blank _ h (by simp [hl]))

/-- The end of a paragraph is a chain of changes. -/
theorem paragraphBreak_changes (flow : Flow) :
    Changes settings flow (flow.paragraphBreak settings) := by
  unfold paragraphBreak
  -- On an empty page there is nothing to set apart, and no blank line is added.
  by_cases hl : flow.newLine.page.lines = []
  · simpa [hl] using newLine_changes flow
  · have hl' : flow.newLine.page.lines.isEmpty = false := by simpa using hl
    simp only [hl', Bool.false_eq_true, if_false]
    exact (newLine_changes flow).trans (addBlanks_changes _ (newLine_current flow) hl _)

/-- Blocks change between two lines. -/
theorem newLine_block_changes (flow : Flow) (f : BlockContext → BlockContext) :
    Changes settings flow (flow.newLine.updateContext f) :=
  (newLine_changes flow).tail (.block _ (newLine_current flow) _ _ _)

/-! ## (2) Words and preformatted text -/

/-- **Invariants of words.** What every word preserves, words preserve one after the other. -/
theorem addWords_preserves {P : Flow → Prop} {context : BlockContext}
    (hword : ∀ {a : Flow} {w : Text} (glue : Bool), a.context = context → w ≠ [] →
      (∀ c ∈ w, Text.isFlowBlank c = false) → P a → P (a.addWord settings w glue))
    (words : List Text) (hne : ∀ w ∈ words, w ≠ [])
    (hletter : ∀ w ∈ words, ∀ c ∈ w, Text.isFlowBlank c = false)
    (hcontext : flow.context = context) (h : P flow) : P (flow.addWords settings words) := by
  induction words generalizing flow with
  | nil => exact h
  | cons w words ih =>
    refine ih (fun v hv => hne v (List.mem_cons_of_mem _ hv))
      (fun v hv => hletter v (List.mem_cons_of_mem _ hv)) ?_
      (hword false hcontext (hne w List.mem_cons_self) (hletter w List.mem_cons_self) h)
    -- A word may end lines, but it never leaves its block.
    rw [addWord_context]
    exact hcontext

/-- Text is laid out word by word, and blanks alone only tell the next word to stand apart. -/
theorem addText_cases (settings : Settings) (flow : Flow) (s : Text) :
    s = [] ∧ flow.addText settings s = flow ∨
      Text.words Text.isFlowBlank s = [] ∧ flow.addText settings s = { flow with glue := false } ∨
      ∃ w words, (∀ v ∈ w :: words, v ≠ []) ∧
        (∀ v ∈ w :: words, ∀ c ∈ v, Text.isFlowBlank c = false) ∧
        flow.addText settings s =
          { (flow.addWord settings w (flow.glue && !startsBlank s)).addWords settings words with
            glue := !endsBlank s } := by
  by_cases hs : s = []
  · exact .inl ⟨hs, by rw [hs]; rfl⟩
  · refine .inr ?_
    unfold addText
    rw [if_neg (by simpa using hs)]
    cases hwords : Text.words Text.isFlowBlank s with
    | nil => exact .inl ⟨rfl, rfl⟩
    | cons w words =>
      refine .inr ⟨w, words, fun v hv => ?_, fun v hv c hc => ?_, rfl⟩
      · exact Text.ne_nil_of_mem_words (hwords ▸ hv)
      · exact Text.letter_of_mem_words (hwords ▸ hv) hc

/-- **Invariants of text.** What every word preserves, and the glue between two texts, a text
preserves. -/
theorem addText_preserves {P : Flow → Prop} (s : Text)
    (hglue : ∀ {a : Flow} (glue : Bool), P a → P { a with glue })
    (hword : ∀ {a : Flow} {w : Text} (glue : Bool), a.context = flow.context → w ≠ [] →
      (∀ c ∈ w, Text.isFlowBlank c = false) → P a → P (a.addWord settings w glue))
    (h : P flow) : P (flow.addText settings s) := by
  obtain ⟨-, heq⟩ | ⟨-, heq⟩ | ⟨w, words, hne, hletter, heq⟩ := addText_cases settings flow s
  · rw [heq]
    exact h
  · rw [heq]
    exact hglue false h
  · have hfirst : P (flow.addWord settings w (flow.glue && !startsBlank s)) :=
      hword _ rfl (hne w List.mem_cons_self) (hletter w List.mem_cons_self) h
    rw [heq]
    exact hglue _ (addWords_preserves hword words (fun v hv => hne v (List.mem_cons_of_mem _ hv))
      (fun v hv => hletter v (List.mem_cons_of_mem _ hv)) (addWord_context _ _ _) hfirst)

/-- Setting the glue is bookkeeping. -/
theorem Change.glue (flow : Flow) (glue : Bool) : Change settings flow { flow with glue } :=
  .quiet flow _ _ _ _ _ _ _ _ _ glue _

/-- Flow text is a chain of changes. -/
theorem addText_changes (flow : Flow) (hpre : flow.context.inPre = false) (s : Text) :
    Changes settings flow (flow.addText settings s) := by
  refine addText_preserves s (fun glue h => h.tail (.glue _ glue)) ?_ Relation.ReflTransGen.refl
  intro a w glue hcontext hne hletter h
  exact h.tail (.word a (hcontext ▸ hpre) w hne hletter glue)

/-- A piece of preformatted text leaves the context alone. -/
@[simp] theorem addPiece_context (flow : Flow) (piece : Text) :
    (flow.addPiece settings piece).context = flow.context := by
  unfold addPiece
  split <;> rfl

/-- The end of a line of preformatted text leaves the context alone. -/
@[simp] theorem commitPre_context (flow : Flow) :
    (flow.commitPre settings).context = flow.context := by
  unfold commitPre
  dsimp only
  split_ifs <;> rfl

/-- A piece of preformatted text is a chain of changes. -/
theorem addPiece_changes (flow : Flow) (hpre : flow.context.inPre = true) (piece : Text)
    (hp : '\n' ∉ piece ∧ '\r' ∉ piece) : Changes settings flow (flow.addPiece settings piece) := by
  by_cases hne : piece = []
  · subst hne
    exact Relation.ReflTransGen.refl
  · exact (Change.piece flow hpre piece hne hp).chain

/-- **Invariants of preformatted text.** What its pieces and the line breaks between them preserve,
the text preserves. -/
theorem addPre_preserves {P : Flow → Prop} (s : Text)
    (hfresh : ∀ {a : Flow} (preFresh : Bool), P a → P { a with preFresh })
    (hpiece : ∀ {a : Flow} {piece : Text}, a.context = flow.context →
      '\n' ∉ piece ∧ '\r' ∉ piece → P a → P (a.addPiece settings piece))
    (hcommit : ∀ {a : Flow}, a.context = flow.context → P a → P (a.commitPre settings))
    (h : P flow) : P (flow.addPre settings s) := by
  have hpieces : ∀ (pieces : List Text) (a : Flow), (∀ q ∈ pieces, '\n' ∉ q ∧ '\r' ∉ q) →
      a.context = flow.context → P a →
      P (pieces.foldl (fun flow q => (flow.commitPre settings).addPiece settings q) a) := by
    intro pieces
    induction pieces with
    | nil => exact fun a _ _ ha => ha
    | cons q pieces ih =>
      intro a hbreak hcontext ha
      have hnext : (a.commitPre settings).context = flow.context := by simpa using hcontext
      exact ih _ (fun r hr => hbreak r (List.mem_cons_of_mem _ hr)) (by simpa using hcontext)
        (hpiece hnext (hbreak q List.mem_cons_self) (hcommit hcontext ha))
  have hbreak : ∀ q ∈ flow.prePieces s, '\n' ∉ q ∧ '\r' ∉ q := fun q hq =>
    Text.no_break_of_mem_lines hq
  have hstart : P { flow with preFresh := flow.preFresh && s.isEmpty } := hfresh _ h
  -- The first piece continues the line; each of the others begins one.
  unfold addPre
  cases heq : flow.prePieces s with
  | nil => exact hstart
  | cons q pieces =>
    rw [heq] at hbreak
    refine hpieces pieces _ (fun r hr => hbreak r (List.mem_cons_of_mem _ hr)) ?_
      (hpiece rfl (hbreak q List.mem_cons_self) hstart)
    rw [addPiece_context]

/-- Preformatted text is a chain of changes. -/
theorem addPre_changes (flow : Flow) (hpre : flow.context.inPre = true) (s : Text) :
    Changes settings flow (flow.addPre settings s) := by
  refine addPre_preserves s (fun preFresh h => ?_) (fun hcontext hbreak h => ?_)
    (fun hcontext h => ?_) Relation.ReflTransGen.refl
  · exact h.tail (.quiet _ _ _ _ _ _ _ _ _ _ _ preFresh)
  · exact h.trans (addPiece_changes _ (hcontext ▸ hpre) _ hbreak)
  · exact h.tail (.commitPre _ (hcontext ▸ hpre))

/-! ## (3) Lines of their own -/

/-- An item is begun on a line of its own. -/
theorem startItem_eq (flow : Flow) :
    flow.startItem settings = flow.newLine.atItem settings := rfl

/-- The start of an item is a chain of changes. -/
theorem startItem_changes (flow : Flow) : Changes settings flow (flow.startItem settings) := by
  rw [startItem_eq]
  exact (newLine_changes flow).tail (.item _ (newLine_current flow))

/-- An image is a chain of changes. -/
theorem addImage_changes (flow : Flow) (attributes : List Attribute) :
    Changes settings flow (flow.addImage settings attributes) := by
  unfold addImage
  cases Attribute.nonempty? attributes "src".toList with
  | none => exact Relation.ReflTransGen.refl
  | some source =>
    exact ((newLine_changes flow).tail (.image _ (newLine_current flow) source _)).trans
      (newLine_changes _)

/-- A rule is a chain of changes. -/
theorem addRule_changes (flow : Flow) : Changes settings flow (flow.addRule settings) := by
  unfold addRule
  dsimp only
  split
  · rename_i hwidth
    exact ((newLine_changes flow).tail
      (.rule _ (newLine_current flow) _ (by omega))).trans (newLine_changes _)
  · exact (newLine_changes flow).trans (newLine_changes _)

/-- Changing the table that is collected is bookkeeping. -/
theorem Change.table (flow : Flow) (f : TableDraft → TableDraft) :
    Change settings flow (flow.updateTable f) :=
  .quiet flow _ _ _ _ _ _ _ _ _ _ _

/-- The lines of a table are a chain of changes. -/
theorem addTableLines_changes (lines : List Line) (flow : Flow) (h : flow.current = []) :
    Changes settings flow (flow.addTableLines lines) := by
  induction lines generalizing flow with
  | nil => exact Relation.ReflTransGen.refl
  | cons line lines ih =>
    exact (Change.tableLine flow h line).chain.trans (ih _ h)

/-- The end of a table is a chain of changes. -/
theorem flushTable_changes (flow : Flow) : Changes settings flow (flow.flushTable settings) := by
  have hstart : Change settings flow { flow with nestedTables := 0 } :=
    .quiet flow _ _ _ _ _ _ _ _ _ _ _
  have hline : Changes settings { flow with nestedTables := 0 }
      ((newLine { flow with nestedTables := 0 }).updateTable fun _ => {}) :=
    (newLine_changes _).tail (.table _ fun _ => {})
  refine hstart.chain.trans (hline.trans ((addTableLines_changes _ _ ?_).trans (newLine_changes _)))
  exact newLine_current _

/-- The start of a table is a chain of changes. -/
theorem openTable_changes (flow : Flow) : Changes settings flow flow.openTable := by
  unfold openTable
  split
  · exact (Change.quiet flow _ _ _ _ _ _ _ _ _ _ _).chain
  · exact (newLine_changes flow).tail (.quiet _ _ _ _ _ _ _ _ _ _ _ _)

/-- The end of a table within another one is a chain of changes as well. -/
theorem closeTable_changes (flow : Flow) : Changes settings flow (flow.closeTable settings) := by
  unfold closeTable
  split
  · exact (Change.quiet flow _ _ _ _ _ _ _ _ _ _ _).chain
  · split
    · exact flushTable_changes flow
    · exact Relation.ReflTransGen.refl

/-- Sections, rows and cells are a chain of changes. -/
theorem changeTablePart_changes (flow : Flow) (name : Text) (closing : Bool) :
    Changes settings flow (flow.changeTablePart name closing) := by
  unfold changeTablePart separateCell
  split
  · split
    · exact (Change.table flow _).chain
    · exact Relation.ReflTransGen.refl
  · exact (Change.table flow _).chain

end Flow

end ChapterLayout
