import ChapterLayout.Proofs.Flow.OpenBlocks

/-! # What operations leave alone

A state has parts that most operations have nothing to do with: the anchors, the mark before the
next word, the headings, the table that is collected, whether text is preformatted, and the open
blocks. Every operation is given with the parts it touches, and leaves all others as they are. What
a token leaves alone follows from its operations:

* **`Flow.Part`**, **`Part.Same`** — the parts of a state, and whether two states have one in
  common;
* **`Operation.touched`** — the parts that an operation touches;
* **`Flow.perform_same`** — an operation leaves all other parts alone;
* **`Flow.feed_same`** — so does a token with the parts that none of its operations touches. -/

namespace ChapterLayout

namespace Flow

variable {settings : Settings} {flow a b c : Flow} {context context' : BlockContext}

/-! ## (1) Parts of a state -/

/-- Whether two states have the headings in common, and the text of the open one. -/
structure SameHeadings (a b : Flow) : Prop where
  headings : b.page.headings = a.page.headings
  headingLine : b.headingLine = a.headingLine
  headingText : b.context.headingText = a.context.headingText

/-- Whether two states have the draft of the table in common, and what decides where its tokens
go. -/
structure SameDraft (a b : Flow) : Prop where
  table : b.context.table = a.context.table
  inHead : b.context.inHead = a.context.inHead
  rawDepth : b.context.rawDepth = a.context.rawDepth
  nestedTables : b.nestedTables = a.nestedTables

/-- Headings are left alone along two steps. -/
theorem SameHeadings.trans (hab : SameHeadings a b) (hbc : SameHeadings b c) : SameHeadings a c :=
  ⟨hbc.headings.trans hab.headings, hbc.headingLine.trans hab.headingLine,
    hbc.headingText.trans hab.headingText⟩

/-- A part of a state. -/
inductive Part where
  | anchors
  /-- The mark that the next word starts with. -/
  | mark
  | headings
  /-- The draft of the table. -/
  | draft
  /-- Whether text is preformatted. -/
  | pre
  /-- The open elements and blocks. -/
  | blocks
  deriving DecidableEq, Repr

namespace Part

/-- Whether two states have a part in common. The mark may be taken back, but none is set. -/
def Same (a b : Flow) : Part → Prop
  | anchors => b.page.anchors = a.page.anchors
  | mark => a.pendingMark = [] → b.pendingMark = []
  | headings => SameHeadings a b
  | draft => SameDraft a b
  | pre => b.context.inPre = a.context.inPre
  | blocks => SameBlocks a b

/-- Whether two contexts have in common what belongs to a part. -/
def SameIn (context context' : BlockContext) : Part → Prop
  | anchors => True
  | mark => True
  | headings => context'.headingText = context.headingText
  | draft => context'.table = context.table ∧ context'.inHead = context.inHead ∧
      context'.rawDepth = context.rawDepth
  | pre => context'.inPre = context.inPre
  | blocks => context'.inTitle = context.inTitle ∧ context'.titleSerial = context.titleSerial ∧
      ∀ kind, context'.depth kind = context.depth kind

variable {part : Part}

/-- A state has every part in common with itself. -/
theorem same_refl (part : Part) (flow : Flow) : part.Same flow flow := by
  cases part with
  | anchors => exact rfl
  | mark => exact id
  | headings => exact ⟨rfl, rfl, rfl⟩
  | draft => exact ⟨rfl, rfl, rfl, rfl⟩
  | pre => exact rfl
  | blocks => exact sameBlocks_refl flow

/-- A part is left alone along two steps. -/
theorem Same.trans (hab : part.Same a b) (hbc : part.Same b c) : part.Same a c := by
  cases part with
  | anchors => exact Eq.trans hbc hab
  | mark => exact fun h => hbc (hab h)
  | headings => exact SameHeadings.trans hab hbc
  | draft =>
    exact ⟨hbc.table.trans hab.table, hbc.inHead.trans hab.inHead,
      hbc.rawDepth.trans hab.rawDepth, hbc.nestedTables.trans hab.nestedTables⟩
  | pre => exact Eq.trans hbc hab
  | blocks => exact SameBlocks.trans hab hbc

end Part

variable {part : Part}

/-- **A step that does nothing else but to lay out lines** and to lead to a context leaves alone
what its context leaves alone. -/
theorem LeadsOnlyTo.same (h : LeadsOnlyTo a context b) (hpart : part.SameIn a.context context) :
    part.Same a b := by
  obtain ⟨⟨rfl, hstyles, hnested⟩, hrecords⟩ := h
  cases part with
  | anchors => exact hrecords.anchors
  | mark => exact hrecords.pendingMark
  | headings => exact ⟨hrecords.headings, hrecords.headingLine, hpart⟩
  | draft => exact ⟨hpart.1, hpart.2.1, hpart.2.2, hnested⟩
  | pre => exact hpart
  | blocks =>
    refine ⟨⟨hstyles, hpart.1, hpart.2.1⟩, fun kind => ?_⟩
    rw [depth, depth, hpart.2.2, hnested]

/-- Such a step within one context leaves every part alone. -/
theorem LeadsOnlyTo.same_all (h : LeadsOnlyTo a a.context b) (part : Part) : part.Same a b := by
  refine h.same ?_
  cases part with
  | anchors => trivial
  | mark => trivial
  | headings => exact rfl
  | draft => exact ⟨rfl, rfl, rfl⟩
  | pre => exact rfl
  | blocks => exact ⟨rfl, rfl, fun _ => rfl⟩

/-! ## (2) Operations -/

end Flow

open Flow in
/-- The parts that the context of a block belongs to. -/
def TagRole.touched : TagRole → List Part
  | .head => [.draft, .blocks]
  | .heading _ => [.headings, .blocks]
  | .pre => [.pre, .blocks]
  | _ => [.blocks]

namespace Flow

variable {settings : Settings} {flow a b c : Flow} {context : BlockContext} {part : Part}

/-- The parts that an operation touches. -/
def Operation.touched : Operation → List Part
  | .text _ => [.headings, .draft]
  | .lineBreak => [.draft]
  | .newLine => []
  | .paragraphBreak => []
  | .enter role => role.touched
  | .leave role => role.touched
  | .item => []
  | .head _ => [.draft, .blocks]
  | .raw _ => [.draft, .blocks]
  | .openPre => [.pre, .blocks]
  | .closePre => [.pre, .blocks]
  | .openHeading _ => [.headings, .blocks]
  | .closeHeading => [.headings, .blocks]
  | .openCode => [.mark]
  | .closeCode => []
  | .openTitle _ => [.blocks]
  | .closeTitle => [.blocks]
  | .openTable => [.draft, .blocks]
  | .closeTable => [.draft, .blocks]
  | .tablePart _ _ => [.draft]
  | .image _ => []
  | .rule => []
  | .anchor _ => [.anchors]
  | .push _ _ => [.blocks]
  | .pop _ => [.blocks]

/-- The number of the next item belongs to no part. -/
theorem sameIn_nextMarker (part : Part) : part.SameIn context context.nextMarker.2 := by
  obtain ⟨lists, hlists⟩ := context.exists_nextMarker
  cases part with
  | blocks =>
    refine ⟨?_, ?_, fun kind => BlockContext.depth_nextMarker kind⟩
    all_goals rw [hlists]
  | draft =>
    refine ⟨?_, ?_, ?_⟩
    all_goals rw [hlists]
  | headings =>
    show context.nextMarker.2.headingText = context.headingText
    rw [hlists]
  | pre =>
    show context.nextMarker.2.inPre = context.inPre
    rw [hlists]
  | _ => trivial

/-- The context in a block differs in the parts it belongs to. -/
theorem sameIn_enter (role : TagRole) (h : part ∉ role.touched) :
    part.SameIn context (role.enter context) := by
  cases role with
  | item => exact sameIn_nextMarker part
  | _ =>
    cases part <;> simp_all [TagRole.touched, TagRole.enter, Part.SameIn, BlockContext.enterList,
      BlockContext.enterQuote]

/-- The context after a block differs in the parts it belongs to. -/
theorem sameIn_leave (role : TagRole) (h : part ∉ role.touched) :
    part.SameIn context (role.leave context) := by
  cases role with
  | title =>
    rw [TagRole.leave]
    split <;> cases part <;> simp_all [TagRole.touched, Part.SameIn]
  | _ =>
    cases part <;> simp_all [TagRole.touched, TagRole.leave, Part.SameIn, BlockContext.leaveList,
      BlockContext.leaveQuote]

/-- Text is collected for the open heading. -/
theorem same_collectHeading (flow : Flow) (s : Text) (h : part ≠ .headings) :
    part.Same flow (flow.collectHeading s) := by
  obtain ⟨headingText, hcollect⟩ := exists_collectHeading flow s
  have hlead : LeadsOnlyTo flow { flow.context with headingText } (flow.collectHeading s) := by
    rw [hcollect]
    exact ⟨⟨rfl, rfl, rfl⟩, ⟨rfl, rfl, rfl, id⟩⟩
  refine hlead.same ?_
  cases part with
  | headings => exact absurd rfl h
  | blocks => exact ⟨rfl, rfl, fun kind => by cases kind <;> rfl⟩
  | draft => exact ⟨rfl, rfl, rfl⟩
  | pre => exact rfl
  | _ => trivial

/-- The draft of the table is changed. -/
theorem same_updateTable (flow : Flow) {f : TableDraft → TableDraft}
    (hf : (f flow.context.table).inTable = flow.context.table.inTable) (h : part ≠ .draft) :
    part.Same flow (flow.updateTable f) := by
  have hlead : LeadsOnlyTo flow { flow.context with table := f flow.context.table }
      (flow.updateTable f) := ⟨⟨rfl, rfl, rfl⟩, ⟨rfl, rfl, rfl, id⟩⟩
  refine hlead.same ?_
  cases part with
  | draft => exact absurd rfl h
  | blocks => exact ⟨rfl, rfl, fun kind => by cases kind <;> simp [BlockContext.depth, hf]⟩
  | headings => exact rfl
  | pre => exact rfl
  | _ => trivial

/-- Text goes to the draft of the table or to the lines. -/
theorem same_feedText (flow : Flow) (s : Text) (hheadings : part ≠ .headings)
    (hdraft : part ≠ .draft) : part.Same flow (flow.feedText settings s) := by
  have hcollect := same_collectHeading flow s hheadings
  rw [feedText_eq]
  split
  · exact part.same_refl flow
  split
  · split
    · exact hcollect.trans (same_updateTable _ rfl hdraft)
    · exact hcollect
  split
  · exact hcollect.trans ((leadsOnlyTo_addPre _ s).same_all part)
  · exact hcollect.trans ((leadsOnlyTo_addText _ s).same_all part)

/-- A line break goes to the draft of the table or to the lines. -/
theorem same_breakLine (flow : Flow) (h : part ≠ .draft) :
    part.Same flow (flow.breakLine settings) := by
  unfold breakLine
  split
  · exact same_updateTable flow rfl h
  split
  · exact (leadsOnlyTo_addPre flow _).same_all part
  · exact (leadsOnlyTo_newLine flow).same_all part

/-- Sections, rows and cells belong to the draft. -/
theorem same_changeTablePart (flow : Flow) (name : Text) (closing : Bool) (h : part ≠ .draft) :
    part.Same flow (flow.changeTablePart name closing) := by
  unfold changeTablePart separateCell
  split
  · split
    · exact same_updateTable flow rfl h
    · exact part.same_refl flow
  · exact same_updateTable flow (TableDraft.update_inTable _ name closing) h

/-- A title belongs to the open blocks. -/
theorem sameIn_title (context : BlockContext) (inTitle : Bool) (titleSerial : Option Nat)
    (h : part ≠ .blocks) : part.SameIn context { context with inTitle, titleSerial } := by
  cases part with
  | draft => exact ⟨rfl, rfl, rfl⟩
  | headings => exact rfl
  | pre => exact rfl
  | blocks => exact absurd rfl h
  | _ => trivial

/-- The head, raw content and tables belong to the draft or to the open blocks. -/
theorem sameIn_hidden (context : BlockContext) (inHead : Bool) (rawDepth : Nat)
    (table : TableDraft) (hdraft : part ≠ .draft) (hblocks : part ≠ .blocks) :
    part.SameIn context { context with inHead, rawDepth, table } := by
  cases part with
  | headings => exact rfl
  | draft => exact absurd rfl hdraft
  | pre => exact rfl
  | blocks => exact absurd rfl hblocks
  | _ => trivial

/-- What belongs neither to the draft nor to the open blocks. -/
theorem SameRecords.same (h : SameRecords a b) (hin : part.SameIn a.context b.context)
    (hdraft : part ≠ .draft) (hblocks : part ≠ .blocks) : part.Same a b := by
  cases part with
  | anchors => exact h.anchors
  | mark => exact h.pendingMark
  | headings => exact ⟨h.headings, h.headingLine, hin⟩
  | draft => exact absurd rfl hdraft
  | pre => exact hin
  | blocks => exact absurd rfl hblocks

/-- What belongs neither to the headings nor to the open blocks. -/
theorem SameDraft.same (h : SameDraft a b) (hanchors : Part.Same a b .anchors)
    (hmark : Part.Same a b .mark) (hpre : Part.Same a b .pre) (hheadings : part ≠ .headings)
    (hblocks : part ≠ .blocks) : part.Same a b := by
  cases part with
  | anchors => exact hanchors
  | mark => exact hmark
  | headings => exact absurd rfl hheadings
  | draft => exact h
  | pre => exact hpre
  | blocks => exact absurd rfl hblocks

/-- Elements that are put on the stack or taken from it belong to the open blocks. -/
theorem same_styles (flow : Flow) (styles : Stack) (notices : List Notice) (h : part ≠ .blocks) :
    part.Same flow { flow with styles, notices } := by
  by_cases hdraft : part = .draft
  · rw [hdraft]
    exact ⟨rfl, rfl, rfl, rfl⟩
  · exact SameRecords.same ⟨rfl, rfl, rfl, id⟩ (sameIn_hidden flow.context _ _ _ hdraft h)
      hdraft h

/-- The end of an element ends a title at most. -/
theorem same_popElement (flow : Flow) (name : Text) (h : part ≠ .blocks) :
    part.Same flow (flow.popElement name) := by
  unfold popElement
  cases flow.styles.pop? name with
  | none => exact same_styles flow _ _ h
  | some popped =>
    have hpop : part.Same flow { flow with styles := popped.2 } := same_styles flow _ _ h
    dsimp only
    split
    · exact hpop.trans ((leadsOnlyTo_closeTitle _).same (sameIn_title _ _ _ h))
    · exact hpop

/-- An opening tag of inline code sets a mark. -/
theorem same_openCode (settings : Settings) (flow : Flow) (h : part ≠ .mark) :
    part.Same flow (flow.openBlock settings .code) := by
  rw [openBlock]
  split
  · exact part.same_refl flow
  · cases part with
    | mark => exact absurd rfl h
    | anchors => exact rfl
    | headings => exact ⟨rfl, rfl, rfl⟩
    | draft => exact ⟨rfl, rfl, rfl, rfl⟩
    | pre => exact rfl
    | blocks => exact ⟨⟨rfl, rfl, rfl⟩, fun _ => rfl⟩

/-- An anchor is recorded beside the lines. -/
theorem same_recordAnchor (flow : Flow) (attributes : List Attribute) (h : part ≠ .anchors) :
    part.Same flow (flow.recordAnchor attributes) := by
  obtain ⟨anchors, hanchors⟩ := exists_recordAnchor flow attributes
  rw [hanchors]
  cases part with
  | anchors => exact absurd rfl h
  | mark => exact id
  | headings => exact ⟨rfl, rfl, rfl⟩
  | draft => exact ⟨rfl, rfl, rfl, rfl⟩
  | pre => exact rfl
  | blocks => exact ⟨⟨rfl, rfl, rfl⟩, fun _ => rfl⟩

/-- **An operation** leaves the parts alone that it does not touch. -/
theorem perform_same (part : Part) (settings : Settings) (flow : Flow) {operation : Operation}
    (h : part ∉ operation.touched) :
    part.Same flow (flow.perform settings operation) := by
  -- Operations that only lay out lines differ by the context they lead to.
  have hline := leadsOnlyTo_newLine flow
  have hdraft : SameDraft flow flow.newLine := hline.same_all .draft
  have hnot : ∀ {other : Part}, other ∈ operation.touched → part ≠ other := by
    rintro other hother rfl
    exact h hother
  -- Each operation leaves alone what it does not touch, by the lemma of the step it performs.
  cases operation with
  | text s => exact same_feedText flow s (hnot (.head _)) (hnot (.tail _ (.head _)))
  | lineBreak => exact same_breakLine flow (hnot (.head _))
  | newLine => exact hline.same_all part
  | paragraphBreak => exact (leadsOnlyTo_paragraphBreak settings flow).same_all part
  | enter role => exact (leadsOnlyTo_newLine_update flow role.enter).same (sameIn_enter role h)
  | leave role => exact (leadsOnlyTo_newLine_update flow role.leave).same (sameIn_leave role h)
  | item => exact (leadsOnlyTo_startItem flow).same (sameIn_nextMarker part)
  | head begins =>
    exact SameRecords.same ⟨rfl, rfl, rfl, id⟩ (sameIn_hidden flow.context _ _ _ (hnot (.head _))
      (hnot (.tail _ (.head _)))) (hnot (.head _)) (hnot (.tail _ (.head _)))
  | raw begins =>
    exact SameRecords.same ⟨rfl, rfl, rfl, id⟩ (sameIn_hidden flow.context _ _ _ (hnot (.head _))
      (hnot (.tail _ (.head _)))) (hnot (.head _)) (hnot (.tail _ (.head _)))
  | openPre => exact (leadsOnlyTo_openPre settings flow).same (sameIn_enter .pre h)
  | closePre => exact (leadsOnlyTo_closePre flow).same (sameIn_leave .pre h)
  | openHeading level =>
    exact SameDraft.same ⟨hdraft.table, hdraft.inHead, hdraft.rawDepth, hdraft.nestedTables⟩
      hline.anchors hline.pendingMark (hline.same_all .pre) (hnot (.head _))
      (hnot (.tail _ (.head _)))
  | closeHeading =>
    exact SameDraft.same ⟨hdraft.table, hdraft.inHead, hdraft.rawDepth, hdraft.nestedTables⟩
      hline.anchors hline.pendingMark (hline.same_all .pre) (hnot (.head _))
      (hnot (.tail _ (.head _)))
  | openCode => exact same_openCode settings flow (hnot (.head _))
  | closeCode =>
    rw [perform, closeBlock]
    split
    · exact part.same_refl flow
    · exact (leadsOnlyTo_closeCode flow).same_all part
  | openTitle attributes =>
    rw [perform]
    split
    · exact (leadsOnlyTo_openTitle flow).same (sameIn_title _ _ _ (hnot (.head _)))
    · exact part.same_refl flow
  | closeTitle =>
    rw [perform, closeBlock]
    split
    · exact (leadsOnlyTo_closeTitle flow).same (sameIn_title _ _ _ (hnot (.head _)))
    · exact part.same_refl flow
  | openTable =>
    obtain ⟨hrecords, table, htable⟩ := sameRecords_openTable flow
    refine hrecords.same ?_ (hnot (.head _)) (hnot (.tail _ (.head _)))
    rw [htable]
    exact sameIn_hidden flow.context _ _ table (hnot (.head _)) (hnot (.tail _ (.head _)))
  | closeTable =>
    obtain ⟨hrecords, table, htable⟩ := sameRecords_closeTable settings flow
    refine hrecords.same ?_ (hnot (.head _)) (hnot (.tail _ (.head _)))
    rw [htable]
    exact sameIn_hidden flow.context _ _ table (hnot (.head _)) (hnot (.tail _ (.head _)))
  | tablePart name closing => exact same_changeTablePart flow name closing (hnot (.head _))
  | image attributes => exact (leadsOnlyTo_addImage flow attributes).same_all part
  | rule => exact (leadsOnlyTo_addRule flow).same_all part
  | anchor attributes => exact same_recordAnchor flow attributes (hnot (.head _))
  | push name attributes => exact same_styles flow _ _ (hnot (.head _))
  | pop name => exact same_popElement flow name (hnot (.head _))

/-- **Operations one after the other** leave the parts alone that none of them touches. -/
theorem performAll_same (part : Part) (settings : Settings) (flow : Flow)
    {operations : List Operation}
    (h : ∀ operation ∈ operations, part ∉ operation.touched) :
    part.Same flow (flow.performAll settings operations) :=
  performAll_related (R := fun a b => part.Same a b) part.same_refl Part.Same.trans
    (fun operation hmem flow => perform_same part settings flow (h operation hmem)) flow

/-! ## (3) Tokens -/

/-- **A token** leaves the parts alone that none of its operations touches. -/
theorem feed_same (part : Part) (settings : Settings) (flow : Flow) {token : Token}
    (h : ∀ operation ∈ token.operations, part ∉ operation.touched) :
    part.Same flow (flow.feed settings token) :=
  feed_related (R := fun a b => part.Same a b) part.same_refl Part.Same.trans
    (fun operation hmem flow => perform_same part settings flow (h operation hmem)) flow

/-- Elements that are closed in their own tag open and close nothing. -/
theorem blocks_not_touched_empty (name : Text) (attributes : List Attribute) :
    ∀ operation ∈ (Token.empty name attributes).operations, .blocks ∉ operation.touched := by
  show ∀ operation ∈ emptyOperations name attributes ++ [.anchor attributes], _
  unfold emptyOperations
  split_ifs <;> simp [Operation.touched]

/-- **Text** opens and closes nothing. -/
theorem sameBlocks_feedText (flow : Flow) (s : Text) :
    SameBlocks flow (flow.feedText settings s) :=
  have htouched : Part.blocks ∉ (Operation.text s).touched := by simp [Operation.touched]
  perform_same .blocks settings flow htouched

/-- **Elements that are closed in their own tag** leave nothing open. -/
theorem sameBlocks_emptyTag (flow : Flow) (name : Text) (attributes : List Attribute) :
    SameBlocks flow (flow.emptyTag settings name attributes) :=
  feed_same .blocks settings flow (blocks_not_touched_empty name attributes)

/-- Tags within a table open and close no block. -/
theorem sameBlocks_changeTablePart (flow : Flow) (name : Text) (closing : Bool) :
    SameBlocks flow (flow.changeTablePart name closing) :=
  same_changeTablePart flow name closing (show Part.blocks ≠ .draft by decide)

end Flow

end ChapterLayout
