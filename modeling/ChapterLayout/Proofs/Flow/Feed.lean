import Mathlib.Data.List.TakeWhile
import ChapterLayout.Proofs.Flow.Change
import ChapterLayout.Proofs.Flow.Operation

/-! # Tokens as chains of changes

Every token takes the state of a layout run through a chain of elementary changes:

* **`perform_changes`** — every operation that tokens are laid out with is a chain of changes;
* **`feed_changes`** — so is laying out a token;
* **`feedAll_changes`**, **`flush_changes`** — so are many tokens, and the end of a chapter;
* **`feedAll_invariant`** — what the fresh state has and every change preserves, every state has
  that tokens lead to. -/

namespace ChapterLayout

namespace Flow

variable {settings : Settings} {flow : Flow}

/-! ## (1) Text -/

/-- The state after text was collected for the heading, if one is open. -/
def collectHeading (flow : Flow) (s : Text) : Flow :=
  if flow.context.inHeading then
    flow.updateContext fun c => { c with headingText := c.headingText ++ s }
  else flow

/-- Text is collected for the heading, and then goes to the open cell, to the preformatted block or
to the line. -/
theorem feedText_eq (flow : Flow) (s : Text) :
    flow.feedText settings s =
      if flow.context.rawDepth ≠ 0 || (flow.context.inHead && !flow.context.inTitle) then flow
      else if flow.context.table.inTable then
        if flow.context.table.inRow then (flow.collectHeading s).updateTable (·.addText s)
        else flow.collectHeading s
      else if flow.context.inPre then (flow.collectHeading s).addPre settings s
      else (flow.collectHeading s).addText settings s := rfl

/-- Collecting text for a heading is bookkeeping. -/
theorem collectHeading_changes (flow : Flow) (s : Text) :
    Changes settings flow (flow.collectHeading s) := by
  unfold collectHeading
  split
  · exact (Change.quiet flow _ _ _ _ _ _ _ _ _ _ _).chain
  · exact Relation.ReflTransGen.refl

/-- Text that is collected for a heading leaves a preformatted block as it is. -/
@[simp] theorem collectHeading_inPre (flow : Flow) (s : Text) :
    (flow.collectHeading s).context.inPre = flow.context.inPre := by
  unfold collectHeading
  split <;> rfl

/-- Text goes to a cell, to preformatted text or to the line that is being filled. -/
theorem feedText_changes (flow : Flow) (s : Text) :
    Changes settings flow (flow.feedText settings s) := by
  have hheading : Changes settings flow (flow.collectHeading s) := collectHeading_changes flow s
  rw [feedText_eq]
  split
  · exact Relation.ReflTransGen.refl
  · split
    · split
      · exact hheading.tail (.table _ _)
      · exact hheading
    · split
      · rename_i hin
        exact hheading.trans (addPre_changes _ (by simpa using hin) s)
      · rename_i hin
        exact hheading.trans (addText_changes _ (by simpa using hin) s)

/-- A line break goes where a text would go. -/
theorem breakLine_changes (flow : Flow) : Changes settings flow (flow.breakLine settings) := by
  unfold breakLine
  split
  · exact (Change.table flow _).chain
  · split
    · rename_i hpre
      exact addPre_changes flow hpre _
    · exact newLine_changes flow

/-! ## (2) Blocks and elements -/

/-- Putting an element on the stack is bookkeeping. -/
theorem Change.push (flow : Flow) (name : Text) (attributes : List Attribute) :
    Change settings flow (flow.pushElement settings name attributes) :=
  .quiet flow _ _ _ _ _ _ _ _ _ _ _

/-- A title begins between two lines. -/
theorem openTitle_changes (flow : Flow) : Changes settings flow flow.openTitle :=
  (newLine_changes flow).trans (newLine_block_changes _ _)

/-- A title ends between two lines. -/
theorem closeTitle_changes (flow : Flow) : Changes settings flow flow.closeTitle :=
  (newLine_block_changes flow _).trans (newLine_changes _)

/-- The mark that begins inline code is set before the next word. -/
theorem openCode_changes (flow : Flow) : Changes settings flow (flow.openBlock settings .code) := by
  rw [openBlock]
  split
  · exact Relation.ReflTransGen.refl
  · have hdepth : Change settings flow { flow with codeDepth := flow.codeDepth + 1 } :=
      .quiet flow _ _ _ _ _ _ _ _ _ _ _
    exact hdepth.chain.tail (.pendingMark _ _ (Or.inr rfl))

/-- The mark that ends inline code is put behind the last word, or the one before the next word is
taken back. -/
theorem closeCode_changes (flow : Flow) : Changes settings flow (flow.closeCode settings) := by
  have hdepth : Change settings flow { flow with codeDepth := flow.codeDepth - 1 } :=
    .quiet flow _ _ _ _ _ _ _ _ _ _ _
  unfold closeCode
  split
  · exact Relation.ReflTransGen.refl
  · dsimp only
    split
    · -- No word came since the opening tag: its mark is taken back.
      exact hdepth.chain.tail (.pendingMark _ _ (Or.inl rfl))
    · split
      · rename_i hwords
        exact hdepth.chain.tail (.codeEnd { flow with codeDepth := flow.codeDepth - 1 } hwords)
      · exact hdepth.chain

/-- Between two lines, the heading is recorded and ends. -/
theorem recordHeading_changes (flow : Flow) : Changes settings flow.newLine flow.closeHeading := by
  unfold closeHeading
  dsimp only
  split
  · refine (Change.heading _ _ _).chain.tail (.block _ ?_ _ _ _)
    exact newLine_current flow
  · exact (Change.block _ (newLine_current flow) _ _ _).chain

/-- A heading ends with its line. -/
theorem closeHeading_changes (flow : Flow) : Changes settings flow flow.closeHeading :=
  (newLine_changes flow).trans (recordHeading_changes flow)

/-- Preformatted text ends behind its last line. -/
theorem closePre_changes (flow : Flow) : Changes settings flow (flow.closePre settings) := by
  unfold closePre
  split
  · rename_i hpre
    dsimp only
    split
    · -- The last line is committed while the block is still open.
      exact ((Change.commitPre flow hpre).chain.tail (.leavePre _ rfl)).trans (newLine_changes _)
    · rename_i hopen
      exact (Change.leavePre flow (by simpa using hopen)).chain.trans (newLine_changes _)
  · exact Relation.ReflTransGen.refl

/-- The end of an element ends a title at most. -/
theorem popElement_changes (flow : Flow) (name : Text) :
    Changes settings flow (flow.popElement name) := by
  unfold popElement
  cases flow.styles.pop? name with
  | none => exact (Change.quiet flow _ _ _ _ _ _ _ _ _ _ _).chain
  | some popped =>
    obtain ⟨serial, styles⟩ := popped
    have hpop : Change settings flow { flow with styles } :=
      .quiet flow _ _ _ _ _ _ _ _ _ _ _
    dsimp only
    split
    · exact hpop.chain.trans (closeTitle_changes _)
    · exact hpop.chain

/-! ## (3) Operations -/

/-- **An operation is a chain of changes.** -/
theorem perform_changes (flow : Flow) (operation : Operation) :
    Changes settings flow (flow.perform settings operation) := by
  cases operation with
  | text s => exact feedText_changes flow s
  | lineBreak => exact breakLine_changes flow
  | newLine => exact newLine_changes flow
  | paragraphBreak => exact paragraphBreak_changes flow
  | enter role => exact newLine_block_changes flow role.enter
  | leave role => exact newLine_block_changes flow role.leave
  | item => exact startItem_changes flow
  | head begins => exact (Change.quiet flow _ _ _ _ _ _ _ _ _ _ _).chain
  | raw begins => exact (Change.quiet flow _ _ _ _ _ _ _ _ _ _ _).chain
  | openPre => exact (newLine_changes flow).tail (.block _ (newLine_current flow) _ _ _)
  | closePre => exact closePre_changes flow
  | openHeading level =>
    -- The heading is recorded for the line that comes next, once it is closed.
    exact (newLine_block_changes flow _).tail (.headingLine _)
  | closeHeading => exact closeHeading_changes flow
  | openCode => exact openCode_changes flow
  | closeCode =>
    rw [perform, closeBlock]
    split
    · exact Relation.ReflTransGen.refl
    · exact closeCode_changes flow
  | openTitle attributes =>
    rw [perform]
    split
    · exact openTitle_changes flow
    · exact Relation.ReflTransGen.refl
  | closeTitle =>
    rw [perform, closeBlock]
    split
    · exact closeTitle_changes flow
    · exact Relation.ReflTransGen.refl
  | openTable => exact openTable_changes flow
  | closeTable => exact closeTable_changes flow
  | tablePart name closing => exact changeTablePart_changes flow name closing
  | image attributes => exact addImage_changes flow attributes
  | rule => exact addRule_changes flow
  | anchor attributes => exact (Change.anchor flow attributes).chain
  | push name attributes => exact (Change.push flow name attributes).chain
  | pop name => exact popElement_changes flow name

/-- Operations one after the other are a chain of changes. -/
theorem performAll_changes (flow : Flow) (operations : List Operation) :
    Changes settings flow (flow.performAll settings operations) :=
  performAll_related (fun _ => Relation.ReflTransGen.refl) Relation.ReflTransGen.trans
    (fun operation _ flow => perform_changes flow operation) flow

/-- Opening a block is a chain of changes. -/
theorem openBlock_changes (flow : Flow) (role : TagRole) :
    Changes settings flow (flow.openBlock settings role) := by
  rw [openBlock_eq_performAll]
  exact performAll_changes flow role.opening

/-! ## (4) Tokens -/

/-- **A token is a chain of changes.** -/
theorem feed_changes (flow : Flow) (token : Token) :
    Changes settings flow (flow.feed settings token) :=
  feed_related (fun _ => Relation.ReflTransGen.refl) Relation.ReflTransGen.trans
    (fun operation _ flow => perform_changes flow operation) flow

/-- Tokens one behind the other are fed one after the other. -/
theorem feedAll_append (flow : Flow) (tokens more : List Token) :
    flow.feedAll settings (tokens ++ more) =
      (flow.feedAll settings tokens).feedAll settings more := List.foldl_append

/-- A run is a sequence of the changes that its tokens make. -/
theorem feedAll_changes (flow : Flow) (tokens : List Token) :
    Changes settings flow (flow.feedAll settings tokens) := by
  induction tokens generalizing flow with
  | nil => exact Relation.ReflTransGen.refl
  | cons token tokens ih => exact (feed_changes flow token).trans (ih _)

/-- **Invariants of a run.** What the fresh state has and every change preserves, every state has
that tokens lead to. -/
theorem feedAll_invariant {P : Flow → Prop} (start : P {})
    (step : ∀ {a b : Flow}, Change settings a b → P a → P b) (tokens : List Token) :
    P (feedAll {} settings tokens) :=
  (feedAll_changes {} tokens).preserves step start

/-- Only blank lines are dropped at the end of a page. -/
theorem exists_dropTrailingBlanks_append (lines : List Line) : ∃ blanks,
    lines = dropTrailingBlanks lines ++ blanks ∧ ∀ line ∈ blanks, line = [] := by
  refine ⟨(lines.reverse.takeWhile (·.isEmpty)).reverse, ?_, fun line hline => ?_⟩
  · rw [dropTrailingBlanks, ← List.reverse_append, List.takeWhile_append_dropWhile,
      List.reverse_reverse]
  · simpa using List.mem_takeWhile_imp (List.mem_reverse.1 hline)

/-- A line with text stays on the page when blank lines are dropped at its end. -/
theorem lt_length_dropTrailingBlanks {lines : List Line} {line : Line} {n : Nat}
    (hline : lines[n]? = some line) (hne : line ≠ []) : n < (dropTrailingBlanks lines).length := by
  obtain ⟨blanks, hblanks, hall⟩ := exists_dropTrailingBlanks_append lines
  by_contra hlt
  rw [hblanks, List.getElem?_append_right (Nat.not_lt.1 hlt)] at hline
  exact hne (hall line (List.mem_of_getElem? hline))

/-- Completing what is pending is a chain of changes. -/
theorem flush_changes (flow : Flow) : Changes settings flow (flow.flush settings) := by
  have hcommit : ∀ a : Flow, Changes settings a (if a.current.isEmpty then a else a.commit) := by
    intro a
    split
    · exact Relation.ReflTransGen.refl
    · rename_i hne
      exact (Change.commit a (by simpa using hne)).chain
  have htable : ∀ a : Flow,
      Changes settings a (if a.context.table.inTable then a.flushTable settings else a) := by
    intro a
    split
    · exact flushTable_changes a
    · exact Relation.ReflTransGen.refl
  -- Preformatted text is completed first, then the table, then the line.
  unfold flush
  dsimp only
  refine Relation.ReflTransGen.trans ?_ ((htable _).trans (hcommit _))
  split
  · rename_i hpre
    exact (Change.commitPre flow (by simpa using (Bool.and_eq_true_iff.1 hpre).1)).chain
  · exact Relation.ReflTransGen.refl

end Flow

end ChapterLayout
