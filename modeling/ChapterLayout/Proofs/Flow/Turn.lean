import Mathlib.Logic.Relation
import ChapterLayout.Proofs.Flow.InStep

/-! # The turn of a token

A token first does what only it can do: it lays out text, starts an item, ends inline code, opens or
closes a block, or puts lines of its own on the page. All the rest is housekeeping, which ends the
line that is being filled and never begins another one:

* **`Flow.Action`** — what a token does first, and the lines of their own it puts on the page;
* **`Flow.Housekeeping`**, **`Flow.Housekeepings`** — what may come after that;
* **`Flow.feed_turn`** — laying out a token is its action followed by housekeeping. -/

namespace ChapterLayout

/-! ## (1) Housekeeping -/

namespace BlockContext

/-- Whether housekeeping may lead from a context to another one: the heading stays as it is, and
neither preformatted text nor a table is opened. -/
structure KeptBy (context context' : BlockContext) : Prop where
  headingLevel : context'.headingLevel = context.headingLevel
  headingText : context'.headingText = context.headingText
  inPre : context'.inPre = true → context.inPre = true
  inTable : context'.table.inTable = true → context.table.inTable = true

end BlockContext

namespace Flow

variable {settings : Settings} {flow flow' : Flow}

/-- What a tag does beside its action. -/
inductive Housekeeping : Flow → Flow → Prop
  /-- Bookkeeping on which no line depends. -/
  | quiet (flow : Flow) (styles : Stack) (notices : List Notice) (pendingMark : Text)
      (codeDepth nestedTables : Nat) (table : TableDraft) (titleSerial : Option Nat)
      (inHead : Bool) (rawDepth : Nat)
      (hmark : pendingMark = flow.pendingMark ∨ pendingMark = [] ∨ pendingMark = ['\x60'])
      (htable : table.inTable = true → flow.context.table.inTable = true) :
      Housekeeping flow
        { flow with
          styles, notices, pendingMark, codeDepth, nestedTables
          context := { flow.context with table, titleSerial, inHead, rawDepth } }
  | anchor (flow : Flow) (attributes : List Attribute) :
      Housekeeping flow (flow.recordAnchor attributes)
  | newLine (flow : Flow) : Housekeeping flow flow.newLine
  | blanks (flow : Flow) (h : flow.current = []) (hl : flow.page.lines ≠ []) (n : Nat) :
      Housekeeping flow (flow.addBlanks n)
  /-- Blocks are opened or closed between two lines. -/
  | block (flow : Flow) (h : flow.current = []) (context : BlockContext)
      (hkept : flow.context.KeptBy context) : Housekeeping flow { flow with context }

/-- A chain of housekeeping. -/
abbrev Housekeepings : Flow → Flow → Prop := Relation.ReflTransGen Housekeeping

/-- A single step of housekeeping is a chain. -/
theorem Housekeeping.chain {a b : Flow} (h : Housekeeping a b) : Housekeepings a b :=
  Relation.ReflTransGen.single h

/-- Housekeeping consists of elementary changes. -/
theorem Housekeeping.changes {a b : Flow} (h : Housekeeping a b) : Changes settings a b := by
  cases h with
  | quiet styles notices pendingMark codeDepth nestedTables table titleSerial inHead rawDepth
      hmark htable =>
    have hquiet : ∀ mark, Changes settings { a with pendingMark := mark }
        { a with
          styles, notices, codeDepth, nestedTables, pendingMark := mark
          context := { a.context with table, titleSerial, inHead, rawDepth } } := fun mark =>
      (Change.quiet { a with pendingMark := mark } styles notices table a.context.headingText
        titleSerial inHead rawDepth codeDepth nestedTables a.glue a.preFresh).chain
    rcases hmark with rfl | hmark
    · exact hquiet a.pendingMark
    · exact (Change.pendingMark a pendingMark hmark).chain.trans (hquiet pendingMark)
  | anchor attributes => exact (Change.anchor a attributes).chain
  | newLine => exact newLine_changes a
  | blanks hnil hl n => exact addBlanks_changes a hnil hl n
  | block hnil context hkept => exact (Change.block a hnil context _ _).chain

/-! ## (2) Operations that are housekeeping -/

/-- Blocks change between two lines. -/
theorem newLine_block_housekeepings (flow : Flow) (f : BlockContext → BlockContext)
    (hkept : flow.context.KeptBy (f flow.context)) :
    Housekeepings flow (flow.newLine.updateContext f) := by
  refine (Housekeeping.newLine flow).chain.tail (.block _ (newLine_current flow) _ ?_)
  rw [newLine_context]
  exact hkept

/-- Changes of the draft that leave its table open are housekeeping. -/
theorem updateTable_housekeeping (flow : Flow) (f : TableDraft → TableDraft)
    (hf : (f flow.context.table).inTable = flow.context.table.inTable) :
    Housekeeping flow (flow.updateTable f) :=
  .quiet flow _ _ _ _ _ (f flow.context.table) _ _ _ (.inl rfl) fun h => hf ▸ h

/-- Putting an element on the stack is housekeeping. -/
theorem pushElement_housekeeping (flow : Flow) (name : Text) (attributes : List Attribute) :
    Housekeeping flow (flow.pushElement settings name attributes) :=
  .quiet flow _ _ _ _ _ _ _ _ _ (.inl rfl) id

/-- The start of a title is housekeeping. -/
theorem openTitle_housekeepings (flow : Flow) : Housekeepings flow flow.openTitle := by
  refine (Housekeeping.newLine flow).chain.trans (newLine_block_housekeepings _ _ ?_)
  exact ⟨rfl, rfl, id, id⟩

/-- The end of a title is housekeeping. -/
theorem closeTitle_housekeepings (flow : Flow) : Housekeepings flow flow.closeTitle := by
  refine (newLine_block_housekeepings flow _ ?_).tail (.newLine _)
  exact ⟨rfl, rfl, id, id⟩

/-- The blank lines behind a paragraph are housekeeping. -/
theorem paragraphBreak_housekeepings (flow : Flow) :
    Housekeepings flow (flow.paragraphBreak settings) := by
  unfold paragraphBreak
  by_cases hl : flow.newLine.page.lines = []
  · simpa [hl] using (Housekeeping.newLine flow).chain
  · have hl' : flow.newLine.page.lines.isEmpty = false := by simpa using hl
    simp only [hl', Bool.false_eq_true, if_false]
    exact (Housekeeping.newLine flow).chain.tail (.blanks _ (newLine_current flow) hl _)

/-- Sections, rows and cells are housekeeping. -/
theorem changeTablePart_housekeepings (flow : Flow) (name : Text) (closing : Bool) :
    Housekeepings flow (flow.changeTablePart name closing) := by
  unfold changeTablePart separateCell
  split
  · split
    · exact (updateTable_housekeeping flow _ rfl).chain
    · exact Relation.ReflTransGen.refl
  · exact (updateTable_housekeeping flow _ (TableDraft.update_inTable _ name closing)).chain

/-- The end of an element is housekeeping. -/
theorem popElement_housekeepings (flow : Flow) (name : Text) :
    Housekeepings flow (flow.popElement name) := by
  unfold popElement
  cases flow.styles.pop? name with
  | none => exact (Housekeeping.quiet flow _ _ _ _ _ _ _ _ _ (.inl rfl) id).chain
  | some popped =>
    obtain ⟨serial, styles⟩ := popped
    have hpop : Housekeeping flow { flow with styles } :=
      .quiet flow _ _ _ _ _ _ _ _ _ (.inl rfl) id
    dsimp only
    split
    · exact hpop.chain.trans (closeTitle_housekeepings _)
    · exact hpop.chain

/-! ## (3) Actions -/

/-- The line of a horizontal rule, unless there is no room for one. -/
def ruleLines (flow : Flow) (settings : Settings) : List Line :=
  let width := min maxRuleWidth (settings.maxWidth - Text.width (flow.indent settings))
  if 0 < width then [flow.indent settings ++ List.replicate width.toNat '─'] else []

/-- The line of an image, if it has a source. -/
def imageLines (flow : Flow) (settings : Settings) (attributes : List Attribute) : List Line :=
  match Attribute.nonempty? attributes "src".toList with
  | none => []
  | some _ =>
    let alt := Text.squeeze ((Attribute.find? attributes "alt".toList).getD [])
    [flow.indent settings ++ imageLabel alt]

/-- The lines of the table that is being collected. -/
def tableLines (flow : Flow) (settings : Settings) : List Line :=
  let table := finishDraft flow.context.table
  Table.draw table.headers table.rows settings.maxWidth (flow.indent settings)

/-- The lines that a token puts on the page as they are: the label of an image, a rule, or the
table that it closes. -/
def apartLines (flow : Flow) (settings : Settings) : Token → List Line
  | .closing name =>
    if TagRole.ofName name = .table ∧ flow.context.inHead = false ∧ flow.nestedTables = 0 ∧
        flow.context.table.inTable = true then flow.tableLines settings
    else []
  | .empty name attributes =>
    if flow.context.inHead then []
    else if name == "br".toList then []
    else if name == "img".toList then flow.imageLines settings attributes
    else if name == "hr".toList then flow.ruleLines settings
    else []
  | _ => []

/-- Whether a token starts an item. -/
def opensItem (flow : Flow) : Token → Bool
  | .opening name _ => TagRole.ofName name == .item && !flow.context.inHead
  | _ => false

/-- What a token does first, and the lines of their own that it puts on the page. -/
inductive Action (settings : Settings) (flow : Flow) : Token → List Line → Flow → Prop
  | none (token : Token) (hitem : flow.opensItem token = false) : Action settings flow token [] flow
  | text (s : Text) : Action settings flow (.text s) [] (flow.feedText settings s)
  | item (name : Text) (attributes : List Attribute)
      (hitem : flow.opensItem (.opening name attributes) = true) :
      Action settings flow (.opening name attributes) [] (flow.startItem settings)
  | openPre (name : Text) (attributes : List Attribute) (hrole : TagRole.ofName name = .pre) :
      Action settings flow (.opening name attributes) [] (flow.openBlock settings .pre)
  | openHeading (name : Text) (attributes : List Attribute) (level : Nat)
      (hrole : TagRole.ofName name = .heading level) :
      Action settings flow (.opening name attributes) [] (flow.openBlock settings (.heading level))
  | openTable (name : Text) (attributes : List Attribute) (hrole : TagRole.ofName name = .table) :
      Action settings flow (.opening name attributes) [] flow.openTable
  | closeHeading (name : Text) : Action settings flow (.closing name) [] flow.closeHeading
  | closePre (name : Text) (hpre : flow.context.inPre = true) :
      Action settings flow (.closing name) [] (flow.closePre settings)
  | codeEnd (name : Text) (hw : flow.hasWords = true) (codeDepth : Nat) :
      Action settings flow (.closing name) []
        ({ flow with codeDepth }.atCodeEnd.fitWord settings)
  | closeTable (name : Text) (hin : flow.context.table.inTable = true) :
      Action settings flow (.closing name) (flow.tableLines settings) (flow.flushTable settings)
  | preBreak (name : Text) (attributes : List Attribute) (hpre : flow.context.inPre = true) :
      Action settings flow (.empty name attributes) [] (flow.addPre settings ['\n'])
  | image (name : Text) (attributes : List Attribute) :
      Action settings flow (.empty name attributes) (flow.imageLines settings attributes)
        (flow.addImage settings attributes)
  | rule (name : Text) (attributes : List Attribute) :
      Action settings flow (.empty name attributes) (flow.ruleLines settings)
        (flow.addRule settings)

/-- A state that an action and housekeeping lead to. -/
def Turn (settings : Settings) (flow : Flow) (token : Token) (apart : List Line)
    (flow' : Flow) : Prop :=
  ∃ acted, Action settings flow token apart acted ∧ Housekeepings acted flow'

/-- A turn without an action. -/
theorem turn_of_housekeepings (h : Housekeepings flow flow') {token : Token}
    (hitem : flow.opensItem token = false) : Turn settings flow token [] flow' :=
  ⟨flow, .none token hitem, h⟩

/-- Housekeeping after a turn belongs to the turn. -/
theorem Turn.trans {token : Token} {apart : List Line} {a b c : Flow}
    (h : Turn settings a token apart b) (hbc : Housekeepings b c) :
    Turn settings a token apart c := by
  obtain ⟨acted, haction, hab⟩ := h
  exact ⟨acted, haction, hab.trans hbc⟩

/-! ## (4) Tags -/

/-- Only the tag of an item starts an item. -/
theorem opensItem_of_ne (flow : Flow) {name : Text} (attributes : List Attribute)
    (h : TagRole.ofName name ≠ .item) : flow.opensItem (.opening name attributes) = false := by
  simp [opensItem, h]

/-- An opening tag starts an item, begins preformatted text or a heading, or does housekeeping only.
-/
theorem openBlock_turn (flow : Flow) (name : Text) (attributes : List Attribute)
    (hshown : flow.hides (TagRole.ofName name) = false) :
    Turn settings flow (.opening name attributes) []
      (flow.openBlock settings (TagRole.ofName name)) := by
  -- The start of an item lays out its marker, which is an action of its own.
  by_cases hitem : TagRole.ofName name = .item
  · have hopens : flow.opensItem (.opening name attributes) = true := by
      simpa [opensItem, hides, hitem] using hshown
    rw [hitem]
    exact ⟨_, .item name attributes hopens, Relation.ReflTransGen.refl⟩
  have hother := opensItem_of_ne flow attributes hitem
  -- Every other block ends the line and changes what is open, which is no action.
  have hkeep : ∀ f : BlockContext → BlockContext, flow.context.KeptBy (f flow.context) →
      Turn settings flow (.opening name attributes) [] (flow.newLine.updateContext f) :=
    fun f hkept => turn_of_housekeepings (newLine_block_housekeepings flow f hkept) hother
  have hline : Turn settings flow (.opening name attributes) [] flow.newLine :=
    turn_of_housekeepings (Housekeeping.newLine flow).chain hother
  have hstay : Turn settings flow (.opening name attributes) [] flow :=
    turn_of_housekeepings Relation.ReflTransGen.refl hother
  -- What is left are the blocks that lay out something themselves.
  cases hrole : TagRole.ofName name with
  | head =>
    refine turn_of_housekeepings (Housekeeping.chain ?_) hother
    exact .quiet flow _ _ _ _ _ _ _ true _ (.inl rfl) id
  | title =>
    rw [openBlock]
    exact hline.trans (newLine_block_housekeepings _ _ ⟨rfl, rfl, id, id⟩)
  | list ordered =>
    rw [openBlock]
    exact hkeep _ ⟨rfl, rfl, id, id⟩
  | item => exact absurd hrole hitem
  | quote =>
    rw [openBlock]
    exact hkeep _ ⟨rfl, rfl, id, id⟩
  | pre => exact ⟨_, .openPre name attributes hrole, Relation.ReflTransGen.refl⟩
  | code =>
    rw [openBlock]
    split
    · exact hstay
    · refine turn_of_housekeepings (Housekeeping.chain ?_) hother
      exact .quiet flow _ _ ['\x60'] _ _ _ _ _ _ (.inr (.inr rfl)) id
  | description =>
    rw [openBlock]
    exact hkeep _ ⟨rfl, rfl, id, id⟩
  | heading level => exact ⟨_, .openHeading name attributes level hrole, Relation.ReflTransGen.refl⟩
  | paragraph => exact hline
  | block => exact hline
  | raw => exact hstay
  | table => exact hstay
  | tablePart => exact hstay
  | inline => exact hstay

/-- The turn of an opening tag puts no lines of its own on the page. -/
theorem openTag_turn (flow : Flow) (name : Text) (attributes : List Attribute) :
    Turn settings flow (.opening name attributes) [] (flow.openTag settings name attributes) := by
  unfold openTag
  dsimp only
  split
  · -- Hidden elements leave no trace.
    rename_i hhidden
    refine turn_of_housekeepings Relation.ReflTransGen.refl ?_
    have hhead : flow.context.inHead = true := by
      simp only [hides, Bool.and_eq_true] at hhidden
      exact hhidden.1.1
    simp [opensItem, hhead]
  · rename_i hshown
    -- The element is opened, then its anchor is recorded, and then it is put on the stack.
    have helement : Turn settings flow (.opening name attributes) []
        ((((flow.openBlock settings (TagRole.ofName name)).recordAnchor attributes).pushElement
          settings name attributes)) :=
      (openBlock_turn flow name attributes (by simpa using hshown)).trans
        ((Housekeeping.anchor _ attributes).chain.tail
          (pushElement_housekeeping _ name attributes))
    split
    · rename_i hrole
      refine turn_of_housekeepings (Housekeeping.chain ?_)
        (opensItem_of_ne flow _ (by simp [hrole]))
      exact .quiet flow _ _ _ _ _ _ _ _ _ (.inl rfl) id
    · rename_i hrole
      have htable : Turn settings flow (.opening name attributes) [] flow.openTable :=
        ⟨_, .openTable name attributes hrole, Relation.ReflTransGen.refl⟩
      exact htable.trans (Housekeeping.anchor _ attributes).chain
    · rename_i hrole
      exact (turn_of_housekeepings (changeTablePart_housekeepings flow name false)
        (opensItem_of_ne flow _ (by simp [hrole]))).trans (Housekeeping.anchor _ attributes).chain
    · split
      · exact helement.trans (openTitle_housekeepings _)
      · exact helement

/-- The end of inline code puts a mark behind the last word, or does housekeeping only. -/
theorem closeCode_turn (flow : Flow) (name : Text) :
    Turn settings flow (.closing name) [] (flow.closeCode settings) := by
  unfold closeCode
  split
  · exact turn_of_housekeepings Relation.ReflTransGen.refl rfl
  · dsimp only
    split
    · -- No word came since the opening tag: its mark is taken back.
      refine turn_of_housekeepings (Housekeeping.chain ?_) rfl
      exact .quiet flow _ _ [] _ _ _ _ _ _ (.inr (.inl rfl)) id
    · split
      · rename_i hw
        exact ⟨_, .codeEnd name hw (flow.codeDepth - 1), Relation.ReflTransGen.refl⟩
      · refine turn_of_housekeepings (Housekeeping.chain ?_) rfl
        exact .quiet flow _ _ _ _ _ _ _ _ _ (.inl rfl) id

/-- A closing tag ends a heading, preformatted text or inline code, or does housekeeping only. -/
theorem closeBlock_turn (flow : Flow) (name : Text) (role : TagRole) :
    Turn settings flow (.closing name) [] (flow.closeBlock settings role) := by
  -- The end of a block ends the line and changes what is open.
  have hkeep : ∀ f : BlockContext → BlockContext, flow.context.KeptBy (f flow.context) →
      Turn settings flow (.closing name) [] (flow.newLine.updateContext f) :=
    fun f hkept => turn_of_housekeepings (newLine_block_housekeepings flow f hkept) rfl
  have hline : Turn settings flow (.closing name) [] flow.newLine :=
    turn_of_housekeepings (Housekeeping.newLine flow).chain rfl
  have hstay : Turn settings flow (.closing name) [] flow :=
    turn_of_housekeepings Relation.ReflTransGen.refl rfl
  -- What is left are the blocks whose end lays out something.
  cases role with
  | head =>
    refine turn_of_housekeepings (Housekeeping.chain ?_) rfl
    exact .quiet flow _ _ _ _ _ _ _ false _ (.inl rfl) id
  | title =>
    rw [closeBlock]
    split
    · exact turn_of_housekeepings (closeTitle_housekeepings flow) rfl
    · exact hstay
  | list ordered =>
    rw [closeBlock]
    exact hkeep _ ⟨rfl, rfl, id, id⟩
  | item => exact hline
  | quote =>
    rw [closeBlock]
    exact hkeep _ ⟨rfl, rfl, id, id⟩
  | pre =>
    rw [closeBlock]
    -- Only a preformatted block that is open has a line to end.
    by_cases hpre : flow.context.inPre = true
    · exact ⟨_, .closePre name hpre, Relation.ReflTransGen.refl⟩
    · rw [closePre, if_neg hpre]
      exact hstay
  | code =>
    rw [closeBlock]
    split
    · exact hstay
    · exact closeCode_turn flow name
  | description =>
    rw [closeBlock]
    exact hkeep _ ⟨rfl, rfl, id, id⟩
  | heading level => exact ⟨_, .closeHeading name, Relation.ReflTransGen.refl⟩
  | paragraph => exact turn_of_housekeepings (paragraphBreak_housekeepings flow) rfl
  | block => exact hline
  | raw => exact hstay
  | table => exact hstay
  | tablePart => exact hstay
  | inline => exact hstay

/-- The end of a table puts its lines on the page, unless the table stands within another one. -/
theorem closeTable_turn (flow : Flow) (name : Text) :
    Turn settings flow (.closing name)
      (if flow.nestedTables = 0 ∧ flow.context.table.inTable = true then flow.tableLines settings
        else [])
      (flow.closeTable settings) := by
  unfold closeTable
  by_cases hnested : flow.nestedTables = 0
  · by_cases hin : flow.context.table.inTable = true
    · simp only [hnested, hin, ne_eq, not_true_eq_false, if_false, and_self, if_true]
      exact ⟨_, .closeTable name hin, Relation.ReflTransGen.refl⟩
    · simp only [hnested, hin, ne_eq, not_true_eq_false, if_false]
      exact turn_of_housekeepings Relation.ReflTransGen.refl rfl
  · simp only [hnested, ne_eq, not_false_eq_true, if_true, false_and, if_false]
    refine turn_of_housekeepings (Housekeeping.chain ?_) rfl
    exact .quiet flow _ _ _ _ _ _ _ _ _ (.inl rfl) id

/-- The turn of a closing tag puts at most the lines of a table on the page. -/
theorem closeTag_turn (flow : Flow) (name : Text) :
    Turn settings flow (.closing name) (flow.apartLines settings (.closing name))
      (flow.closeTag settings name) := by
  -- Only the end of a table puts lines of their own on the page.
  have hnone : TagRole.ofName name ≠ .table → flow.apartLines settings (.closing name) = [] := by
    intro hrole
    simp [apartLines, hrole]
  unfold closeTag
  dsimp only
  split
  -- The tag is hidden in the head.
  · rename_i hhidden
    have hhead : flow.context.inHead = true := by
      simp only [hides, Bool.and_eq_true] at hhidden
      exact hhidden.1.1
    have hempty : flow.apartLines settings (.closing name) = [] := by simp [apartLines, hhead]
    rw [hempty]
    exact turn_of_housekeepings Relation.ReflTransGen.refl rfl
  · rename_i hshown
    split
    · rename_i hrole
      rw [hnone (by simp [hrole])]
      refine turn_of_housekeepings (Housekeeping.chain ?_) rfl
      exact .quiet flow _ _ _ _ _ _ _ _ _ (.inl rfl) id
    · rename_i hrole
      -- A table in the head would be hidden.
      have hhead : flow.context.inHead = false := by
        simpa [hides, hrole] using hshown
      -- The lines are put on the page where the outermost table ends.
      have happart : flow.apartLines settings (.closing name) =
          if flow.nestedTables = 0 ∧ flow.context.table.inTable = true then
            flow.tableLines settings else [] := by
        simp [apartLines, hrole, hhead]
      rw [happart]
      exact closeTable_turn flow name
    · rename_i hrole
      rw [hnone (by simp [hrole])]
      exact turn_of_housekeepings (changeTablePart_housekeepings flow name true) rfl
    · rename_i hraw htable hpart
      rw [hnone htable]
      exact (closeBlock_turn flow name _).trans (popElement_housekeepings _ name)

/-- A line break continues preformatted text, or does housekeeping only. -/
theorem breakLine_turn (flow : Flow) (name : Text) (attributes : List Attribute) :
    Turn settings flow (.empty name attributes) [] (flow.breakLine settings) := by
  unfold breakLine
  split
  · exact turn_of_housekeepings (updateTable_housekeeping flow _ rfl).chain rfl
  · split
    · rename_i hpre
      exact ⟨_, .preBreak name attributes hpre, Relation.ReflTransGen.refl⟩
    · exact turn_of_housekeepings (Housekeeping.newLine flow).chain rfl

/-- The turn of an element without content puts the line of an image or a rule on the page, if any.
-/
theorem emptyTag_turn (flow : Flow) (name : Text) (attributes : List Attribute) :
    Turn settings flow (.empty name attributes) (flow.apartLines settings (.empty name attributes))
      (flow.emptyTag settings name attributes) := by
  by_cases hhead : flow.context.inHead = true
  · rw [apartLines, if_pos hhead, emptyTag, if_pos hhead]
    exact turn_of_housekeepings Relation.ReflTransGen.refl rfl
  · rw [apartLines, if_neg hhead, emptyTag, if_neg hhead]
    -- Whatever the element does, its anchor comes last.
    refine Turn.trans ?_ (Housekeeping.anchor _ attributes).chain
    by_cases hbr : (name == "br".toList) = true
    · rw [if_pos hbr, if_pos hbr]
      exact breakLine_turn flow name attributes
    · rw [if_neg hbr, if_neg hbr]
      by_cases himg : (name == "img".toList) = true
      · rw [if_pos himg, if_pos himg]
        exact ⟨_, .image name attributes, Relation.ReflTransGen.refl⟩
      · rw [if_neg himg, if_neg himg]
        by_cases hhr : (name == "hr".toList) = true
        · rw [if_pos hhr, if_pos hhr]
          exact ⟨_, .rule name attributes, Relation.ReflTransGen.refl⟩
        · rw [if_neg hhr, if_neg hhr]
          split
          · exact turn_of_housekeepings (Housekeeping.newLine flow).chain rfl
          · exact turn_of_housekeepings Relation.ReflTransGen.refl rfl

/-- **Laying out a token** is its action followed by housekeeping. -/
theorem feed_turn (settings : Settings) (flow : Flow) (token : Token) :
    Turn settings flow token (flow.apartLines settings token) (flow.feed settings token) := by
  cases token with
  | opening name attributes => exact openTag_turn flow name attributes
  | closing name => exact closeTag_turn flow name
  | empty name attributes => exact emptyTag_turn flow name attributes
  | text s => exact ⟨_, .text s, Relation.ReflTransGen.refl⟩

end Flow

end ChapterLayout
