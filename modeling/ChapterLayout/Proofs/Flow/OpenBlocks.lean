import ChapterLayout.Proofs.Flow.Reflow
import ChapterLayout.Proofs.Flow.Styled

/-! # The open blocks

What steps of a layout do to the blocks that are open. Some blocks are counted while they are open,
others are noted by a flag that several elements share:

* **`BlockContext.depth`** — how many blocks of a kind are open, as far as they are counted;
* **`Flow.LeadsTo`**, **`Flow.SameBlocks`** — whether a step leads to a context, and whether it
  opens and closes nothing;
* **`Flow.openBlock_leadsTo`**, **`Flow.closeBlock_leadsTo`** — tags lead into their block, and
  out of it. -/

namespace ChapterLayout

/-! ## (1) Blocks -/

/-- A kind of block that tags open and close. -/
inductive BlockKind where
  | list
  | quote
  | heading
  | pre
  | description
  | head
  | raw
  | table
  deriving DecidableEq, Repr

namespace TagRole

/-- The kind of block that the tags of a role open and close. -/
def kind? : TagRole → Option BlockKind
  | .list _ => some .list
  | .quote => some .quote
  | .heading _ => some .heading
  | .pre => some .pre
  | .description => some .description
  | .head => some .head
  | .raw => some .raw
  | .table => some .table
  | _ => none

/-- Whether the tags of a role open and close elements of the stack. -/
def isStacked (role : TagRole) : Bool := role != .raw && role != .table && role != .tablePart

/-- The role of an element on the stack is not that of a table. -/
theorem kind?_ne_table {role : TagRole} (h : role.isStacked = true) : role.kind? ≠ some .table := by
  cases role <;> simp [kind?, isStacked] at h ⊢

/-- Only a title opens a title, and no role gives the title a number. -/
theorem title_enter (role : TagRole) (context : BlockContext) :
    (role.enter context).inTitle = (context.inTitle || role == .title) ∧
      (role.enter context).titleSerial = context.titleSerial := by
  cases role with
  | item =>
    simp only [enter, BlockContext.nextMarker]
    split
    · simp
    · split <;> simp
  | _ => simp [enter, BlockContext.enterList, BlockContext.enterQuote]

/-- Only a title closes a title, and its number with it. -/
theorem title_leave (role : TagRole) (context : BlockContext) :
    (role.leave context).inTitle = (context.inTitle && role != .title) ∧
      (role.leave context).titleSerial =
        if context.inTitle && role == .title then none else context.titleSerial := by
  cases role with
  | title => cases hin : context.inTitle <;> simp [leave, hin]
  | _ => simp [leave, BlockContext.leaveList, BlockContext.leaveQuote]

end TagRole

namespace BlockContext

/-- How many blocks of a kind are open in a context, as far as it counts them. -/
def depth (context : BlockContext) : BlockKind → Nat
  | .list => context.lists.length
  | .quote => context.quoteDepth
  | .heading => min context.headingLevel 1
  | .pre => context.inPre.toNat
  | .description => context.inDescription.toNat
  | .head => context.inHead.toNat
  | .raw => context.rawDepth
  | .table => context.table.inTable.toNat

variable {context : BlockContext}

/-- The next item is counted in its list, and nothing else is changed. -/
theorem exists_nextMarker (context : BlockContext) :
    ∃ lists, context.nextMarker.2 = { context with lists } := by
  unfold nextMarker
  split
  · exact ⟨context.lists, rfl⟩
  · split
    · exact ⟨_, rfl⟩
    · exact ⟨context.lists, rfl⟩

/-- A list marker leaves as many blocks open as before. -/
theorem depth_nextMarker (kind : BlockKind) :
    context.nextMarker.2.depth kind = context.depth kind := by
  unfold nextMarker
  split
  · rfl
  · rename_i hlists
    split
    · cases kind <;> simp [depth, hlists]
    · rfl

/-- The title is a block of no kind. -/
theorem depth_setTitle (context : BlockContext) (inTitle : Bool) (titleSerial : Option Nat)
    (kind : BlockKind) :
    ({ context with inTitle, titleSerial } : BlockContext).depth kind = context.depth kind := by
  cases kind <;> rfl

/-- **An opening tag** opens one block at most, and none of another kind. -/
theorem depth_enter_le (context : BlockContext) (role : TagRole) (kind : BlockKind) :
    (role.enter context).depth kind ≤
      context.depth kind + if role.kind? = some kind then 1 else 0 := by
  cases role with
  | item => exact Nat.le_add_right_of_le (depth_nextMarker kind).le
  | heading level =>
    cases kind with
    | heading => exact (Nat.min_le_right level 1).trans (Nat.le_add_left 1 _)
    | _ => exact Nat.le_add_right _ _
  | _ =>
    cases kind <;> simp [TagRole.enter, TagRole.kind?, depth, enterList, enterQuote]

/-- **A closing tag** closes a block of its kind, if one is open, and opens none. -/
theorem depth_leave_le (context : BlockContext) (role : TagRole) (kind : BlockKind)
    (hrole : role.isStacked = true) :
    (role.leave context).depth kind ≤
      context.depth kind - if role.kind? = some kind then 1 else 0 := by
  cases role with
  | title =>
    rw [TagRole.leave]
    split <;> cases kind <;> simp [TagRole.kind?, depth]
  | raw => cases hrole
  | table => cases hrole
  | tablePart => cases hrole
  | _ =>
    cases kind <;> simp [TagRole.leave, TagRole.kind?, depth, leaveList, leaveQuote]

end BlockContext

namespace Flow

variable {settings : Settings} {flow a b c d : Flow} {name : Text} {attributes : List Attribute}
  {context : BlockContext}

/-! ## (2) Steps to a context -/

/-- How many blocks of a kind are open. Tables inside a table count. -/
def depth (flow : Flow) (kind : BlockKind) : Nat :=
  flow.context.depth kind + if kind = .table then flow.nestedTables else 0

/-- Whether a step leads to a context and leaves the open elements and the nested tables alone. -/
structure LeadsTo (a : Flow) (context : BlockContext) (b : Flow) : Prop where
  context : b.context = context
  styles : b.styles = a.styles
  nestedTables : b.nestedTables = a.nestedTables

/-- Whether two states have the records beside the lines in common: the anchors and the headings. No
mark is set for the next word. -/
structure SameRecords (a b : Flow) : Prop where
  anchors : b.page.anchors = a.page.anchors
  headings : b.page.headings = a.page.headings
  headingLine : b.headingLine = a.headingLine
  pendingMark : a.pendingMark = [] → b.pendingMark = []

/-- Whether a step leads to a context and does nothing else but to lay out lines. -/
structure LeadsOnlyTo (a : Flow) (context : BlockContext) (b : Flow) : Prop extends
  LeadsTo a context b, SameRecords a b

/-- Whether the same elements and the same title are open in two states. -/
structure SameTitle (a b : Flow) : Prop where
  styles : b.styles = a.styles
  inTitle : b.context.inTitle = a.context.inTitle
  titleSerial : b.context.titleSerial = a.context.titleSerial

/-- Whether the same elements, the same title and as many blocks are open in two states. -/
structure SameBlocks (a b : Flow) : Prop extends SameTitle a b where
  depth : ∀ kind, b.depth kind = a.depth kind

/-- The same title is open along two steps. -/
theorem SameTitle.trans (hab : SameTitle a b) (hbc : SameTitle b c) : SameTitle a c :=
  ⟨hbc.styles.trans hab.styles, hbc.inTitle.trans hab.inTitle,
    hbc.titleSerial.trans hab.titleSerial⟩

/-- The same blocks are open if nothing is done. -/
theorem sameBlocks_refl (flow : Flow) : SameBlocks flow flow := ⟨⟨rfl, rfl, rfl⟩, fun _ => rfl⟩

/-- The same blocks are open along two steps. -/
theorem SameBlocks.trans (hab : SameBlocks a b) (hbc : SameBlocks b c) : SameBlocks a c :=
  ⟨hab.toSameTitle.trans hbc.toSameTitle, fun kind => (hbc.depth kind).trans (hab.depth kind)⟩

/-- Two steps lead where the second one leads. -/
theorem LeadsTo.trans (hab : LeadsTo a context b) {context' : BlockContext}
    (hbc : LeadsTo b context' c) : LeadsTo a context' c :=
  ⟨hbc.context, hbc.styles.trans hab.styles, hbc.nestedTables.trans hab.nestedTables⟩

/-- A step that stays in the context it finds. -/
theorem LeadsTo.keep (hab : LeadsTo a context b) (hbc : LeadsTo b b.context c) :
    LeadsTo a context c :=
  hab.trans ⟨hbc.context.trans hab.context, hbc.styles, hbc.nestedTables⟩

/-- Records are the same along two steps. -/
theorem SameRecords.trans (hab : SameRecords a b) (hbc : SameRecords b c) : SameRecords a c :=
  ⟨hbc.anchors.trans hab.anchors, hbc.headings.trans hab.headings,
    hbc.headingLine.trans hab.headingLine, fun h => hbc.pendingMark (hab.pendingMark h)⟩

/-- A step that does nothing else, and one after it that stays in the context it finds. -/
theorem LeadsOnlyTo.keep (hab : LeadsOnlyTo a context b) (hbc : LeadsOnlyTo b b.context c) :
    LeadsOnlyTo a context c :=
  ⟨hab.toLeadsTo.keep hbc.toLeadsTo, hab.toSameRecords.trans hbc.toSameRecords⟩

/-- Nothing is done. -/
theorem leadsOnlyTo_refl (flow : Flow) : LeadsOnlyTo flow flow.context flow :=
  ⟨⟨rfl, rfl, rfl⟩, ⟨rfl, rfl, rfl, id⟩⟩

/-- A step within the same context. -/
theorem LeadsTo.sameBlocks (h : LeadsTo a a.context b) : SameBlocks a b := by
  refine ⟨⟨h.styles, congrArg _ h.context, congrArg _ h.context⟩, fun kind => ?_⟩
  rw [depth, depth, h.context, h.nestedTables]

/-- A step to a context with the same title. -/
theorem LeadsTo.sameTitle (h : LeadsTo a context b)
    (hin : context.inTitle = a.context.inTitle)
    (hserial : context.titleSerial = a.context.titleSerial) : SameTitle a b :=
  ⟨h.styles, (congrArg _ h.context).trans hin, (congrArg _ h.context).trans hserial⟩

/-- The end of a line changes nothing but lines. -/
theorem leadsOnlyTo_newLine (flow : Flow) : LeadsOnlyTo flow flow.context flow.newLine := by
  unfold newLine
  dsimp only
  split_ifs <;> exact ⟨⟨rfl, rfl, rfl⟩, ⟨rfl, rfl, rfl, id⟩⟩

/-- The blocks change between two lines. -/
theorem leadsOnlyTo_newLine_update (flow : Flow) (f : BlockContext → BlockContext) :
    LeadsOnlyTo flow (f flow.context) (flow.newLine.updateContext f) := by
  obtain ⟨⟨hcontext, hstyles, hnested⟩, hrecords⟩ := leadsOnlyTo_newLine flow
  exact ⟨⟨congrArg f hcontext, hstyles, hnested⟩, ⟨hrecords.anchors, hrecords.headings,
    hrecords.headingLine, hrecords.pendingMark⟩⟩

/-- An anchor is recorded beside the lines. -/
theorem leadsTo_recordAnchor (flow : Flow) (attributes : List Attribute) :
    LeadsTo flow flow.context (flow.recordAnchor attributes) := by
  obtain ⟨anchors, hanchors⟩ := exists_recordAnchor flow attributes
  rw [hanchors]
  exact ⟨rfl, rfl, rfl⟩

/-! ## (3) Lines -/

/-- A word that moves changes nothing but lines. -/
theorem leadsOnlyTo_fitWord (settings : Settings) (flow : Flow) :
    LeadsOnlyTo flow flow.context (flow.fitWord settings) := by
  rw [fitWord_eq]
  split <;> exact ⟨⟨rfl, rfl, rfl⟩, ⟨rfl, rfl, rfl, id⟩⟩

/-- A word changes nothing but lines. -/
theorem leadsOnlyTo_addWord (flow : Flow) (word : Text) (glue : Bool) :
    LeadsOnlyTo flow flow.context (flow.addWord settings word glue) := by
  unfold addWord beginLine makeRoom fitWord
  dsimp only
  split_ifs <;> exact ⟨⟨rfl, rfl, rfl⟩, ⟨rfl, rfl, rfl, fun _ => rfl⟩⟩

/-- Flow text changes nothing but lines. -/
theorem leadsOnlyTo_addText (flow : Flow) (s : Text) :
    LeadsOnlyTo flow flow.context (flow.addText settings s) := by
  refine addText_preserves s (fun glue h => h.keep ?_) (fun glue _ _ _ h => h.keep ?_)
    (leadsOnlyTo_refl flow)
  · exact ⟨⟨rfl, rfl, rfl⟩, ⟨rfl, rfl, rfl, id⟩⟩
  · exact leadsOnlyTo_addWord _ _ glue

/-- The end of a line of preformatted text changes nothing but lines. -/
theorem leadsOnlyTo_commitPre (flow : Flow) :
    LeadsOnlyTo flow flow.context (flow.commitPre settings) := by
  unfold commitPre
  dsimp only
  split_ifs <;> exact ⟨⟨rfl, rfl, rfl⟩, ⟨rfl, rfl, rfl, id⟩⟩

/-- A piece of preformatted text changes nothing but its line. -/
theorem leadsOnlyTo_addPiece (flow : Flow) (piece : Text) :
    LeadsOnlyTo flow flow.context (flow.addPiece settings piece) := by
  unfold addPiece
  split <;> exact ⟨⟨rfl, rfl, rfl⟩, ⟨rfl, rfl, rfl, id⟩⟩

/-- Preformatted text changes nothing but lines. -/
theorem leadsOnlyTo_addPre (flow : Flow) (s : Text) :
    LeadsOnlyTo flow flow.context (flow.addPre settings s) := by
  refine addPre_preserves s (fun preFresh h => h.keep ?_) (fun _ _ h => h.keep ?_)
    (fun _ h => h.keep ?_) (leadsOnlyTo_refl flow)
  · exact ⟨⟨rfl, rfl, rfl⟩, ⟨rfl, rfl, rfl, id⟩⟩
  · exact leadsOnlyTo_addPiece _ _
  · exact leadsOnlyTo_commitPre _

/-- The end of a paragraph changes nothing but lines. -/
theorem leadsOnlyTo_paragraphBreak (settings : Settings) (flow : Flow) :
    LeadsOnlyTo flow flow.context (flow.paragraphBreak settings) := by
  obtain ⟨n, hbreak, -⟩ := exists_paragraphBreak_blanks settings flow
  rw [hbreak]
  exact (leadsOnlyTo_newLine flow).keep ⟨⟨rfl, rfl, rfl⟩, ⟨rfl, rfl, rfl, id⟩⟩

/-- A line of its own changes nothing but lines. -/
theorem leadsOnlyTo_commitBlock (flow : Flow) (line : Text) (group : Group) :
    LeadsOnlyTo flow flow.context (flow.commitBlock line group) :=
  ⟨⟨rfl, rfl, rfl⟩, ⟨rfl, rfl, rfl, id⟩⟩

/-- An image changes nothing but lines. -/
theorem leadsOnlyTo_addImage (flow : Flow) (attributes : List Attribute) :
    LeadsOnlyTo flow flow.context (flow.addImage settings attributes) := by
  unfold addImage
  split
  · exact leadsOnlyTo_refl flow
  · refine ((leadsOnlyTo_newLine flow).keep ?_).keep (leadsOnlyTo_newLine _)
    exact ⟨⟨rfl, rfl, rfl⟩, ⟨rfl, rfl, rfl, id⟩⟩

/-- A horizontal rule changes nothing but lines. -/
theorem leadsOnlyTo_addRule (flow : Flow) :
    LeadsOnlyTo flow flow.context (flow.addRule settings) := by
  have hline := leadsOnlyTo_newLine flow
  unfold addRule
  dsimp only
  split
  · exact (hline.keep (leadsOnlyTo_commitBlock _ _ _)).keep (leadsOnlyTo_newLine _)
  · exact hline.keep (leadsOnlyTo_newLine _)

/-- An item is counted in its list. -/
theorem leadsOnlyTo_startItem (flow : Flow) :
    LeadsOnlyTo flow flow.context.nextMarker.2 (flow.startItem settings) := by
  obtain ⟨spans, heq⟩ := exists_atItem settings flow.newLine
  obtain ⟨⟨hcontext, hstyles, hnested⟩, hrecords⟩ := leadsOnlyTo_newLine flow
  rw [startItem_eq, heq]
  exact ⟨⟨congrArg (fun c => c.nextMarker.2) hcontext, hstyles, hnested⟩, ⟨hrecords.anchors,
    hrecords.headings, hrecords.headingLine, hrecords.pendingMark⟩⟩

/-! ## (4) Blocks -/

/-- A title begins between two lines. -/
theorem leadsOnlyTo_openTitle (flow : Flow) :
    LeadsOnlyTo flow
      { flow.context with inTitle := true, titleSerial := some flow.styles.opened }
      flow.openTitle := by
  have hline := leadsOnlyTo_newLine flow
  have htitle := leadsOnlyTo_newLine_update flow.newLine
    ({ · with inTitle := true, titleSerial := some flow.styles.opened })
  rw [hline.context] at htitle
  exact ⟨hline.toLeadsTo.trans htitle.toLeadsTo, hline.toSameRecords.trans htitle.toSameRecords⟩

/-- A title ends between two lines. -/
theorem leadsOnlyTo_closeTitle (flow : Flow) :
    LeadsOnlyTo flow { flow.context with inTitle := false, titleSerial := none }
      flow.closeTitle :=
  (leadsOnlyTo_newLine_update flow ({ · with inTitle := false, titleSerial := none })).keep
    (leadsOnlyTo_newLine _)

/-- Preformatted text begins on a line of its own. -/
theorem leadsOnlyTo_openPre (settings : Settings) (flow : Flow) :
    LeadsOnlyTo flow { flow.context with inPre := true } (flow.openBlock settings .pre) := by
  obtain ⟨⟨hcontext, hstyles, hnested⟩, hrecords⟩ :=
    leadsOnlyTo_newLine_update flow ({ · with inPre := true })
  exact ⟨⟨hcontext, hstyles, hnested⟩, ⟨hrecords.anchors, hrecords.headings,
    hrecords.headingLine, hrecords.pendingMark⟩⟩

/-- The end of inline code changes nothing but the last word. -/
theorem leadsOnlyTo_closeCode (flow : Flow) :
    LeadsOnlyTo flow flow.context (flow.closeCode settings) := by
  have hend : LeadsOnlyTo flow flow.context flow.leaveCode.atCodeEnd :=
    ⟨⟨rfl, rfl, rfl⟩, ⟨rfl, rfl, rfl, id⟩⟩
  rw [closeCode_eq]
  split_ifs
  · exact leadsOnlyTo_refl flow
  · exact ⟨⟨rfl, rfl, rfl⟩, ⟨rfl, rfl, rfl, fun _ => rfl⟩⟩
  · exact hend.keep (leadsOnlyTo_fitWord settings _)
  · exact ⟨⟨rfl, rfl, rfl⟩, ⟨rfl, rfl, rfl, id⟩⟩

/-- The last line of preformatted text is ended with its block. -/
theorem leadsOnlyTo_endPreLine (flow : Flow) :
    LeadsOnlyTo flow flow.context (flow.endPreLine settings) := by
  unfold endPreLine
  split
  · exact leadsOnlyTo_commitPre flow
  · exact leadsOnlyTo_refl flow

/-- Preformatted text ends behind its last line. -/
theorem leadsOnlyTo_closePre (flow : Flow) :
    LeadsOnlyTo flow { flow.context with inPre := false } (flow.closePre settings) := by
  rw [closePre_eq]
  split
  · obtain ⟨⟨hcontext, hstyles, hnested⟩, hrecords⟩ := @leadsOnlyTo_endPreLine settings flow
    have hleave : LeadsOnlyTo flow { flow.context with inPre := false }
        ((flow.endPreLine settings).updateContext ({ · with inPre := false })) :=
      ⟨⟨congrArg (fun c : BlockContext => { c with inPre := false }) hcontext, hstyles, hnested⟩,
        ⟨hrecords.anchors, hrecords.headings, hrecords.headingLine, hrecords.pendingMark⟩⟩
    exact hleave.keep (leadsOnlyTo_newLine _)
  · rename_i hpre
    have hpre : flow.context.inPre = false := by simpa using hpre
    rw [← hpre]
    exact leadsOnlyTo_refl flow

/-- **Opening tags** lead to the context of their block. -/
theorem openBlock_leadsTo (settings : Settings) (flow : Flow) (role : TagRole) :
    LeadsTo flow (role.enter flow.context) (flow.openBlock settings role) := by
  have hline := leadsOnlyTo_newLine flow
  have hblock := fun f => (leadsOnlyTo_newLine_update flow f).toLeadsTo
  cases role with
  | title =>
    have htitle := leadsOnlyTo_newLine_update flow.newLine ({ · with inTitle := true })
    rw [hline.context] at htitle
    exact hline.toLeadsTo.trans htitle.toLeadsTo
  | list ordered => exact hblock (·.enterList ordered)
  | item => exact (leadsOnlyTo_startItem flow).toLeadsTo
  | quote => exact hblock (·.enterQuote)
  | pre => exact (leadsOnlyTo_openPre settings flow).toLeadsTo
  | code =>
    rw [openBlock]
    split <;> exact ⟨rfl, rfl, rfl⟩
  | description => exact hblock ({ · with inDescription := true })
  | heading level =>
    obtain ⟨hcontext, hstyles, hnested⟩ :=
      hblock ({ · with headingLevel := level, headingText := [] })
    exact ⟨hcontext, hstyles, hnested⟩
  | paragraph => exact hline.toLeadsTo
  | block => exact hline.toLeadsTo
  | _ => exact ⟨rfl, rfl, rfl⟩

/-- **Closing tags** lead to the context outside their block. -/
theorem closeBlock_leadsTo (settings : Settings) (flow : Flow) (role : TagRole) :
    LeadsTo flow (role.leave flow.context) (flow.closeBlock settings role) := by
  have hline := leadsOnlyTo_newLine flow
  have hblock := fun f => (leadsOnlyTo_newLine_update flow f).toLeadsTo
  cases role with
  | title =>
    rw [closeBlock, TagRole.leave]
    split
    · exact (leadsOnlyTo_closeTitle flow).toLeadsTo
    · exact ⟨rfl, rfl, rfl⟩
  | list ordered => exact hblock (·.leaveList)
  | item => exact hline.toLeadsTo
  | quote => exact hblock (·.leaveQuote)
  | pre => exact (leadsOnlyTo_closePre flow).toLeadsTo
  | code =>
    rw [closeBlock]
    split
    · exact ⟨rfl, rfl, rfl⟩
    · exact (leadsOnlyTo_closeCode flow).toLeadsTo
  | description => exact hblock ({ · with inDescription := false })
  | heading level =>
    obtain ⟨hcontext, hstyles, hnested⟩ := hblock ({ · with headingLevel := 0, headingText := [] })
    exact ⟨hcontext, hstyles, hnested⟩
  | paragraph => exact (leadsOnlyTo_paragraphBreak settings flow).toLeadsTo
  | block => exact hline.toLeadsTo
  | _ => exact ⟨rfl, rfl, rfl⟩

/-! ## (5) Tables -/

/-- The start of a table changes nothing but lines and tables. -/
theorem sameRecords_openTable (flow : Flow) : SameRecords flow flow.openTable ∧
    ∃ table, flow.openTable.context = { flow.context with table } := by
  have hline := leadsOnlyTo_newLine flow
  unfold openTable
  split
  · exact ⟨⟨rfl, rfl, rfl, id⟩, flow.context.table, rfl⟩
  · exact ⟨⟨hline.anchors, hline.headings, hline.headingLine, hline.pendingMark⟩, _,
      congrArg BlockContext.startTable hline.context⟩

/-- A table is opened, or counted as one more inside a table. -/
theorem openTable_spec (flow : Flow) :
    SameTitle flow flow.openTable ∧
      ∀ kind, flow.openTable.depth kind ≤ flow.depth kind + if kind = .table then 1 else 0 := by
  unfold openTable
  split
  · refine ⟨⟨rfl, rfl, rfl⟩, fun kind => ?_⟩
    cases kind <;> simp [depth, BlockContext.depth, notice]
    omega
  · have hline := leadsOnlyTo_newLine flow
    have hopened : LeadsTo flow flow.context.startTable
        { flow.newLine with context := flow.newLine.context.startTable } :=
      ⟨congrArg BlockContext.startTable hline.context, hline.styles, hline.nestedTables⟩
    refine ⟨hopened.sameTitle rfl rfl, fun kind => ?_⟩
    rw [depth, depth, hopened.context, hopened.nestedTables]
    cases kind <;> simp [BlockContext.depth, BlockContext.startTable]
    omega

/-- The lines of a table are put on the page. -/
theorem leadsOnlyTo_addTableLines (lines : List Line) (flow : Flow) :
    LeadsOnlyTo flow flow.context (flow.addTableLines lines) := by
  unfold addTableLines
  induction lines generalizing flow with
  | nil => exact leadsOnlyTo_refl flow
  | cons line lines ih =>
    have hline : LeadsOnlyTo flow flow.context ((flow.exempt flow.lineIndex).addLine line) :=
      ⟨⟨rfl, rfl, rfl⟩, ⟨rfl, rfl, rfl, id⟩⟩
    exact hline.keep (ih _)

/-- The end of a table also ends the tables inside it. -/
theorem leadsOnlyTo_flushTable (settings : Settings) (flow : Flow) :
    LeadsOnlyTo { flow with nestedTables := 0 } { flow.context with table := {} }
      (flow.flushTable settings) := by
  have hline := leadsOnlyTo_newLine { flow with nestedTables := 0 }
  have hdraft : LeadsOnlyTo { flow with nestedTables := 0 } { flow.context with table := {} }
      ((newLine { flow with nestedTables := 0 }).updateTable fun _ => {}) :=
    ⟨⟨congrArg (fun c : BlockContext => { c with table := {} }) hline.context, hline.styles,
      hline.nestedTables⟩, ⟨hline.anchors, hline.headings, hline.headingLine, hline.pendingMark⟩⟩
  exact (hdraft.keep (leadsOnlyTo_addTableLines _ _)).keep (leadsOnlyTo_newLine _)

/-- The end of a table changes nothing but lines and tables. -/
theorem sameRecords_flushTable (settings : Settings) (flow : Flow) :
    SameRecords flow (flow.flushTable settings) ∧
      (flow.flushTable settings).context = { flow.context with table := {} } := by
  have hflush := leadsOnlyTo_flushTable settings flow
  exact ⟨⟨hflush.anchors, hflush.headings, hflush.headingLine, hflush.pendingMark⟩,
    hflush.context⟩

/-- So does the end of a table inside a table. -/
theorem sameRecords_closeTable (settings : Settings) (flow : Flow) :
    SameRecords flow (flow.closeTable settings) ∧
      ∃ table, (flow.closeTable settings).context = { flow.context with table } := by
  unfold closeTable
  split
  · exact ⟨⟨rfl, rfl, rfl, id⟩, flow.context.table, rfl⟩
  split
  · obtain ⟨hrecords, hcontext⟩ := sameRecords_flushTable settings flow
    exact ⟨hrecords, {}, hcontext⟩
  · exact ⟨⟨rfl, rfl, rfl, id⟩, flow.context.table, rfl⟩

/-- A table is closed, or one of the tables inside it. -/
theorem closeTable_spec (settings : Settings) (flow : Flow) :
    SameTitle flow (flow.closeTable settings) ∧
      ∀ kind, (flow.closeTable settings).depth kind ≤
        flow.depth kind - if kind = .table then 1 else 0 := by
  unfold closeTable
  split
  · refine ⟨⟨rfl, rfl, rfl⟩, fun kind => ?_⟩
    cases kind <;> simp [depth, BlockContext.depth]
    omega
  · split
    · have hflush := leadsOnlyTo_flushTable settings flow
      have htitle := hflush.sameTitle rfl rfl
      refine ⟨⟨htitle.styles, htitle.inTitle, htitle.titleSerial⟩, fun kind => ?_⟩
      rw [depth, depth, hflush.context, hflush.nestedTables]
      cases kind <;> simp [BlockContext.depth]
    · rename_i hnested hin
      refine ⟨⟨rfl, rfl, rfl⟩, fun kind => ?_⟩
      cases kind <;> simp_all [depth, BlockContext.depth]

end Flow

end ChapterLayout
