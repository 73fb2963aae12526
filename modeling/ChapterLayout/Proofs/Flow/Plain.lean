import ChapterLayout.Proofs.Flow.HeadingLines

/-! # The one thing a token does

Of all that a token does to a state, little touches the word that is being laid out or the marker of
an item. All the rest is made of plain changes:

* **`Flow.Plain`**, **`Flow.Plains`** — changes that begin no item and lay out no word;
* **`Flow.Feat`** — what a token may do before: lay out flow text, begin an item or end inline code;
* **`Flow.feed_does`** — laying out a token is one such feat at most, followed by plain changes. -/

namespace ChapterLayout

namespace Flow

variable {settings : Settings} {flow flow' a b c acted : Flow} {token : Token} {apart : List Line}

/-! ## (1) Plain changes -/

/-- The changes that begin no item and lay out no word. -/
inductive Plain (settings : Settings) : Flow → Flow → Prop
  /-- Bookkeeping on which no line and no record depends. -/
  | quiet (flow : Flow) (styles : Stack) (notices : List Notice) (table : TableDraft)
      (headingText : Text) (titleSerial : Option Nat) (inHead : Bool)
      (rawDepth codeDepth nestedTables : Nat) (glue preFresh : Bool) :
      Plain settings flow
        { flow with
          styles, notices, codeDepth, nestedTables, glue, preFresh
          context := { flow.context with table, headingText, titleSerial, inHead, rawDepth } }
  | anchor (flow : Flow) (attributes : List Attribute) :
      Plain settings flow (flow.recordAnchor attributes)
  | heading (flow : Flow) (level : Int) (text : Text) :
      Plain settings flow
        { flow with page := { flow.page with
            headings := flow.page.headings ++ [⟨level, text, flow.headingLine⟩] } }
  | headingLine (flow : Flow) : Plain settings flow { flow with headingLine := flow.lineIndex }
  | pendingMark (flow : Flow) (mark : Text) (h : mark = [] ∨ mark = ['\x60']) :
      Plain settings flow { flow with pendingMark := mark }
  | commit (flow : Flow) (h : flow.current ≠ []) : Plain settings flow flow.commit
  | blank (flow : Flow) (h : flow.current = []) (hl : flow.page.lines ≠ []) :
      Plain settings flow (flow.addLine [])
  | reset (flow : Flow) (h : flow.current = []) :
      Plain settings flow { flow with continuation := [], glue := false }
  | block (flow : Flow) (h : flow.current = []) (context : BlockContext)
      (preFresh preLineOpen : Bool) :
      Plain settings flow { flow with context, preFresh, preLineOpen }
  | leavePre (flow : Flow) (h : flow.preLineOpen = false) :
      Plain settings flow { flow with context := { flow.context with inPre := false } }
  | piece (flow : Flow) (hpre : flow.context.inPre = true) (piece : Text) (hne : piece ≠ [])
      (hp : '\n' ∉ piece ∧ '\r' ∉ piece) : Plain settings flow (flow.addPiece settings piece)
  | commitPre (flow : Flow) (hpre : flow.context.inPre = true) :
      Plain settings flow (flow.commitPre settings)
  | image (flow : Flow) (h : flow.current = []) (source alt : Text) :
      Plain settings flow (flow.atImage settings source alt)
  | rule (flow : Flow) (h : flow.current = []) (width : Nat) (hw : 0 < width) :
      Plain settings flow
        (flow.commitBlock (flow.indent settings ++ List.replicate width '─') Group.rule)
  | tableLine (flow : Flow) (h : flow.current = []) (line : Line) :
      Plain settings flow ((flow.exempt flow.lineIndex).addLine line)

/-- A chain of plain changes. -/
abbrev Plains (settings : Settings) : Flow → Flow → Prop := Relation.ReflTransGen (Plain settings)

/-- A single plain change is a chain. -/
theorem Plain.chain (h : Plain settings a b) : Plains settings a b := Relation.ReflTransGen.single h

/-- Plain changes are changes. -/
theorem Plain.change (h : Plain settings a b) : Change settings a b := by
  cases h with
  | quiet => exact .quiet a _ _ _ _ _ _ _ _ _ _ _
  | anchor attributes => exact .anchor a attributes
  | heading level text => exact .heading a level text
  | headingLine => exact .headingLine a
  | pendingMark mark h => exact .pendingMark a mark h
  | commit h => exact .commit a h
  | blank h hl => exact .blank a h hl
  | reset h => exact .reset a h
  | block h context preFresh preLineOpen => exact .block a h context preFresh preLineOpen
  | leavePre h => exact .leavePre a h
  | piece hpre piece hne hp => exact .piece a hpre piece hne hp
  | commitPre hpre => exact .commitPre a hpre
  | image h source alt => exact .image a h source alt
  | rule h width hw => exact .rule a h width hw
  | tableLine h line => exact .tableLine a h line

/-- **A change that is not plain** begins an item, lays out a word or ends inline code. -/
theorem Change.plain_or (h : Change settings a b) :
    Plain settings a b ∨ (a.current = [] ∧ b = a.atItem settings) ∨
      (∃ word glue, a.context.inPre = false ∧ word ≠ [] ∧
        (∀ c ∈ word, Text.isFlowBlank c = false) ∧ b = a.addWord settings word glue) ∨
      a.hasWords = true ∧ b = a.atCodeEnd.fitWord settings := by
  cases h with
  | quiet => exact .inl (.quiet a _ _ _ _ _ _ _ _ _ _ _)
  | anchor attributes => exact .inl (.anchor a attributes)
  | heading level text => exact .inl (.heading a level text)
  | headingLine => exact .inl (.headingLine a)
  | pendingMark mark h => exact .inl (.pendingMark a mark h)
  | commit h => exact .inl (.commit a h)
  | blank h hl => exact .inl (.blank a h hl)
  | reset h => exact .inl (.reset a h)
  | block h context preFresh preLineOpen => exact .inl (.block a h context preFresh preLineOpen)
  | leavePre h => exact .inl (.leavePre a h)
  | item h => exact .inr (.inl ⟨h, rfl⟩)
  | word hpre word hne hw glue => exact .inr (.inr (.inl ⟨word, glue, hpre, hne, hw, rfl⟩))
  | codeEnd h => exact .inr (.inr (.inr ⟨h, rfl⟩))
  | piece hpre piece hne hp => exact .inl (.piece a hpre piece hne hp)
  | commitPre hpre => exact .inl (.commitPre a hpre)
  | image h source alt => exact .inl (.image a h source alt)
  | rule h width hw => exact .inl (.rule a h width hw)
  | tableLine h line => exact .inl (.tableLine a h line)

/-- Chains of plain changes are chains of changes. -/
theorem Plains.changes (h : Plains settings a b) : Changes settings a b :=
  Relation.ReflTransGen.mono (fun _ _ => Plain.change) _ _ h

/-- **Invariants of plain changes.** What every plain change preserves, a chain of them does. -/
theorem Plains.preserves {P : Flow → Prop}
    (step : ∀ {a b : Flow}, a.Begun settings → Plain settings a b → P a → P b)
    (h : Plains settings a b) (hbegun : a.Begun settings) (hP : P a) : P b := by
  induction h with
  | refl => exact hP
  | tail hab hbc ih => exact step (hbegun.changes (Plains.changes hab)) hbc ih

/-- The line of preformatted text that is open, or the start of one, with its span. -/
def preMarked (flow : Flow) (settings : Settings) : Flow :=
  let begun := { flow with current := flow.preStart settings }
  if begun.current.isEmpty then begun else begun.addSpan 0 begun.current.length Group.code

/-- A line of preformatted text is marked and then committed. -/
theorem commitPre_eq (settings : Settings) (flow : Flow) :
    flow.commitPre settings = { (flow.preMarked settings).commit with preLineOpen := false } := rfl

/-! ## (2) Operations that are plain -/

/-- The end of a line is plain. -/
theorem newLine_plains (flow : Flow) : Plains settings flow flow.newLine := by
  by_cases h : flow.current = []
  · by_cases he : flow.endsInText = true
    · rw [newLine_of_endsInText h he]
      exact (Plain.blank flow h (lines_ne_nil_of_endsInText he)).chain.tail (.reset _ h)
    · rw [newLine_of_not_endsInText h (by simpa using he)]
      exact (Plain.reset _ h).chain
  · rw [newLine_of_begun h]
    exact (Plain.commit flow h).chain.tail (.reset _ rfl)

/-- Blank lines are plain. -/
theorem addBlanks_plains (h : flow.current = []) (hl : flow.page.lines ≠ []) (n : Nat) :
    Plains settings flow (flow.addBlanks n) := by
  induction n with
  | zero => rw [addBlanks_zero]
  | succ n ih =>
    have hnext : flow.addBlanks (n + 1) = (flow.addBlanks n).addLine [] := by
      simp [addBlanks, addLine, List.replicate_succ']
    rw [hnext]
    exact ih.tail (.blank _ h (by simp [addBlanks, hl]))

/-- Housekeeping is plain. -/
theorem Housekeeping.plains (h : Housekeeping a b) : Plains settings a b := by
  cases h with
  | quiet styles notices pendingMark codeDepth nestedTables table titleSerial inHead rawDepth
      hmark htable =>
    have hquiet : ∀ mark, Plains settings { a with pendingMark := mark }
        { a with
          styles, notices, codeDepth, nestedTables, pendingMark := mark
          context := { a.context with table, titleSerial, inHead, rawDepth } } := fun mark =>
      (Plain.quiet { a with pendingMark := mark } styles notices table a.context.headingText
        titleSerial inHead rawDepth codeDepth nestedTables a.glue a.preFresh).chain
    rcases hmark with rfl | hmark
    · exact hquiet a.pendingMark
    · exact (Plain.pendingMark a pendingMark hmark).chain.trans (hquiet pendingMark)
  | anchor attributes => exact (Plain.anchor a attributes).chain
  | newLine => exact newLine_plains a
  | blanks hnil hl n => exact addBlanks_plains hnil hl n
  | block hnil context hkept => exact (Plain.block a hnil context _ _).chain

/-- Housekeeping one after the other is plain. -/
theorem Housekeepings.plains (h : Housekeepings a b) : Plains settings a b := by
  induction h with
  | refl => exact Relation.ReflTransGen.refl
  | tail _ hb ih => exact ih.trans hb.plains

/-- Preformatted text is laid out in pieces. -/
theorem addPre_plains (flow : Flow) (hpre : flow.context.inPre = true) (s : Text) :
    Plains settings flow (flow.addPre settings s) := by
  refine addPre_preserves s (fun preFresh h => ?_) (fun {a} {piece} hcontext hbreak h => ?_)
    (fun hcontext h => ?_) Relation.ReflTransGen.refl
  · exact h.tail (.quiet _ _ _ _ _ _ _ _ _ _ _ preFresh)
  · by_cases hne : piece = []
    · rw [hne]
      exact h
    · exact h.tail (.piece a (hcontext ▸ hpre) piece hne hbreak)
  · exact h.tail (.commitPre _ (hcontext ▸ hpre))

/-- Collecting the text of a heading is plain. -/
theorem collectHeading_plains (flow : Flow) (s : Text) :
    Plains settings flow (flow.collectHeading s) := by
  unfold collectHeading
  split
  · exact (Plain.quiet flow _ _ _ _ _ _ _ _ _ _ _).chain
  · exact Relation.ReflTransGen.refl

/-- The lines of a table are plain. -/
theorem addTableLines_plains (lines : List Line) (flow : Flow) (h : flow.current = []) :
    Plains settings flow (flow.addTableLines lines) := by
  induction lines generalizing flow with
  | nil => exact Relation.ReflTransGen.refl
  | cons line lines ih => exact (Plain.tableLine flow h line).chain.trans (ih _ h)

/-- The end of a table is plain. -/
theorem flushTable_plains (flow : Flow) : Plains settings flow (flow.flushTable settings) := by
  have hstart : Plain settings flow { flow with nestedTables := 0 } :=
    .quiet flow _ _ _ _ _ _ _ _ _ _ _
  have hline : Plains settings { flow with nestedTables := 0 }
      ((newLine { flow with nestedTables := 0 }).updateTable fun _ => {}) :=
    (newLine_plains _).tail (.quiet _ _ _ _ _ _ _ _ _ _ _ _)
  refine hstart.chain.trans (hline.trans ((addTableLines_plains _ _ ?_).trans (newLine_plains _)))
  exact newLine_current _

/-- The end of a line of preformatted text is plain. -/
theorem endPreLine_plains (hpre : flow.context.inPre = true) :
    Plains settings flow (flow.endPreLine settings) := by
  unfold endPreLine
  split
  · exact (Plain.commitPre flow hpre).chain
  · exact Relation.ReflTransGen.refl

/-- The end of preformatted text is plain. -/
theorem closePre_plains (hpre : flow.context.inPre = true) :
    Plains settings flow (flow.closePre settings) := by
  have hclosed : (flow.endPreLine settings).preLineOpen = false := by
    unfold endPreLine
    split
    · rfl
    · rename_i hopen
      simpa using hopen
  rw [closePre_eq, if_pos hpre]
  exact ((endPreLine_plains hpre).tail (.leavePre _ hclosed)).trans (newLine_plains _)

/-- The end of a heading is plain. -/
theorem closeHeading_plains (flow : Flow) : Plains settings flow flow.closeHeading := by
  refine (newLine_plains flow).trans ?_
  unfold closeHeading
  dsimp only
  split
  · refine (Plain.heading _ _ _).chain.tail (.block _ ?_ _ _ _)
    exact newLine_current flow
  · exact (Plain.block _ (newLine_current flow) _ _ _).chain

/-- The start of a table is plain. -/
theorem openTable_plains (flow : Flow) : Plains settings flow flow.openTable := by
  unfold openTable
  split
  · exact (Plain.quiet flow _ _ _ _ _ _ _ _ _ _ _).chain
  · exact (newLine_plains flow).tail (.quiet _ _ _ _ _ _ _ _ _ _ _ _)

/-- An image is plain. -/
theorem addImage_plains (flow : Flow) (attributes : List Attribute) :
    Plains settings flow (flow.addImage settings attributes) := by
  unfold addImage
  cases Attribute.nonempty? attributes "src".toList with
  | none => exact Relation.ReflTransGen.refl
  | some source =>
    exact ((newLine_plains flow).tail (.image _ (newLine_current flow) source _)).trans
      (newLine_plains _)

/-- A rule is plain. -/
theorem addRule_plains (flow : Flow) : Plains settings flow (flow.addRule settings) := by
  unfold addRule
  dsimp only
  split
  · rename_i hwidth
    exact ((newLine_plains flow).tail
      (.rule _ (newLine_current flow) _ (by omega))).trans (newLine_plains _)
  · exact (newLine_plains flow).trans (newLine_plains _)

/-- The end of a chapter is plain. -/
theorem flush_plains (flow : Flow) : Plains settings flow (flow.flush settings) := by
  have hend : Plains settings flow (flow.flushPre settings) := by
    unfold flushPre
    split
    · rename_i hpre
      exact endPreLine_plains hpre
    · exact Relation.ReflTransGen.refl
  by_cases hin : flow.context.table.inTable = true
  · rw [flush_of_inTable hin]
    exact hend.trans (flushTable_plains _)
  · rw [flush_eq (by simpa using hin)]
    refine hend.trans ?_
    show Plains settings (flow.flushPre settings)
      (if (flow.flushPre settings).current.isEmpty then _ else _)
    split
    · exact Relation.ReflTransGen.refl
    · rename_i hne
      exact (Plain.commit _ (by simpa using hne)).chain

/-! ## (3) Feats -/

/-- What a token does that is not plain. -/
inductive Feat (settings : Settings) (flow : Flow) : Token → Flow → Prop
  | none (token : Token) : Feat settings flow token flow
  | text (s : Text) (hpre : flow.context.inPre = false) :
      Feat settings flow (.text s) ((flow.collectHeading s).addText settings s)
  | item (token : Token) (h : flow.opensItem token = true) :
      Feat settings flow token (flow.newLine.atItem settings)
  | codeEnd (token : Token) (hw : flow.hasWords = true) (codeDepth : Nat) :
      Feat settings flow token ({ flow with codeDepth }.atCodeEnd.fitWord settings)

/-- A feat is a chain of changes. -/
theorem Feat.changes (h : Feat settings flow token acted) : Changes settings flow acted := by
  cases h with
  | none => exact Relation.ReflTransGen.refl
  | text s hpre =>
    exact (collectHeading_changes flow s).trans (addText_changes _ (by simpa using hpre) s)
  | item => exact (newLine_changes flow).tail (.item _ (newLine_current flow))
  | codeEnd token hw codeDepth =>
    have hdepth : Change settings flow { flow with codeDepth } :=
      .quiet flow _ _ _ _ _ _ _ _ _ _ _
    exact hdepth.chain.tail (.codeEnd { flow with codeDepth } hw)

/-- A feat and the plain changes after it. -/
def Does (settings : Settings) (flow : Flow) (token : Token) (flow' : Flow) : Prop :=
  ∃ acted, Feat settings flow token acted ∧ Plains settings acted flow'

/-- Plain changes alone are what a token may do. -/
theorem does_of_plains (h : Plains settings flow flow') (token : Token) :
    Does settings flow token flow' := ⟨flow, .none token, h⟩

/-- Text is laid out as flow text, or it is plain. -/
theorem does_feedText (flow : Flow) (s : Text) :
    Does settings flow (.text s) (flow.feedText settings s) := by
  have hheading : Plains settings flow (flow.collectHeading s) := collectHeading_plains flow s
  have hplain : ∀ {flow'}, Plains settings flow flow' → Does settings flow (.text s) flow' :=
    fun h => does_of_plains h _
  rw [feedText_eq]
  split
  · exact hplain Relation.ReflTransGen.refl
  split
  · split
    · exact hplain (hheading.trans (updateTable_housekeeping _ _ rfl).plains)
    · exact hplain hheading
  split
  · rename_i hpre
    exact hplain (hheading.trans (addPre_plains _ (by simpa using hpre) s))
  · rename_i hpre
    exact ⟨_, .text s (by simpa using hpre), Relation.ReflTransGen.refl⟩

/-- The action of a token is a feat, or it is plain. -/
theorem Action.does (h : Action settings flow token apart acted) :
    Does settings flow token acted := by
  cases h with
  | none => exact does_of_plains Relation.ReflTransGen.refl _
  | text s => exact does_feedText flow s
  | item name attributes hitem => exact ⟨_, .item _ hitem, Relation.ReflTransGen.refl⟩
  | openPre name attributes hrole =>
    exact does_of_plains ((newLine_plains flow).tail (.block _ (newLine_current flow) _ _ _)) _
  | openHeading name attributes level hrole =>
    refine does_of_plains (((newLine_plains flow).tail ?_).tail (.headingLine _)) _
    exact .block _ (newLine_current flow) _ _ _
  | openTable => exact does_of_plains (openTable_plains flow) _
  | closeHeading => exact does_of_plains (closeHeading_plains flow) _
  | closePre name hpre => exact does_of_plains (closePre_plains hpre) _
  | codeEnd name hw codeDepth => exact ⟨_, .codeEnd _ hw codeDepth, Relation.ReflTransGen.refl⟩
  | closeTable => exact does_of_plains (flushTable_plains flow) _
  | preBreak name attributes hpre => exact does_of_plains (addPre_plains flow hpre _) _
  | image name attributes => exact does_of_plains (addImage_plains flow attributes) _
  | rule => exact does_of_plains (addRule_plains flow) _

/-- **Laying out a token** is at most one feat, followed by plain changes. -/
theorem feed_does (settings : Settings) (flow : Flow) (token : Token) :
    Does settings flow token (flow.feed settings token) := by
  obtain ⟨acted, haction, hkeep⟩ := feed_turn settings flow token
  obtain ⟨done, hfeat, hplains⟩ := haction.does
  exact ⟨done, hfeat, hplains.trans hkeep.plains⟩

end Flow

end ChapterLayout
