import ChapterLayout.Proofs.Flow.InStep
import ChapterLayout.Proofs.Flow.Operation

/-! # Layouts of different widths

Two layouts of one chapter stay in step from the first token to the last, and so their pages show
the same text. What is laid out as wide as the page is left out: tables and rules. Bars before the
lines of a quotation are part of the page; unless they count as gaps, quotations are left out as
well.

* **`InStep.perform`** — operations keep two runs in step, unless they are left out;
* **`InStep.feed`** — so does every token that is not left out;
* **`run_reflow`** — the pages of two runs show the same text up to its gaps. -/

namespace ChapterLayout

namespace Token

/-- The part of a tag in the block structure; text plays none. -/
def role : Token → TagRole
  | .opening name _ => TagRole.ofName name
  | .closing name => TagRole.ofName name
  | .empty name _ => TagRole.ofName name
  | .text _ => .inline

/-- Whether a token is a horizontal rule. -/
def isRule : Token → Bool
  | .empty name _ => name == "hr".toList
  | _ => false

/-- Whether a token is laid out as wide as the page, as tables and rules are. -/
def isWide (token : Token) : Bool :=
  token.role == .table || token.role == .tablePart || token.isRule

end Token

/-- Whether an operation belongs to what is laid out as wide as the page. -/
def Flow.Operation.isWide : Flow.Operation → Bool
  | .openTable | .closeTable | .tablePart _ _ | .rule => true
  | _ => false

/-- The operations of a token are as wide as the page only if the token is. -/
theorem Token.isWide_of_mem_operations {token : Token} (h : token.isWide = false) :
    ∀ operation ∈ token.operations, operation.isWide = false := by
  simp only [isWide, Bool.or_eq_false_iff, beq_eq_false_iff_ne] at h
  obtain ⟨⟨htable, hpart⟩, hrule⟩ := h
  cases token with
  | text s => simp [operations, Flow.Operation.isWide]
  | opening name attributes =>
    simp only [operations]
    cases hrole : TagRole.ofName name <;>
      simp_all [role, TagRole.opening, Flow.Operation.isWide]
  | closing name =>
    simp only [operations]
    cases hrole : TagRole.ofName name <;>
      simp_all [role, TagRole.closing, Flow.Operation.isWide]
  | empty name attributes =>
    simp only [operations, Flow.emptyOperations]
    split_ifs <;> simp_all [isRule, Flow.Operation.isWide]

/-- Only the opening tags of quotations open one. -/
theorem Token.ne_enter_quote_of_mem_operations {token : Token} (h : token.role ≠ .quote)
    {operation : Flow.Operation} (hmem : operation ∈ token.operations) :
    operation ≠ .enter .quote := by
  rintro rfl
  cases token with
  | text s => simp [operations] at hmem
  | opening name attributes =>
    simp only [operations] at hmem
    cases hrole : TagRole.ofName name <;> simp_all [role, TagRole.opening]
  | closing name =>
    simp only [operations] at hmem
    cases hrole : TagRole.ofName name <;> simp_all [role, TagRole.closing]
  | empty name attributes =>
    simp only [operations, Flow.emptyOperations] at hmem
    split_ifs at hmem <;> simp_all

variable {p : Char → Bool}

/-- Counting an item leaves quotations and tables alone. -/
theorem BlockContext.Plain.nextMarker {context : BlockContext} (h : context.Plain p) :
    context.nextMarker.2.Plain p := by
  unfold BlockContext.nextMarker
  split
  · exact h
  · split
    · exact ⟨h.quoteDepth, h.inTable⟩
    · exact h

/-- The end of a quotation puts no bar before the lines. -/
theorem BlockContext.Plain.leaveQuote {context : BlockContext} (h : context.Plain p) :
    context.leaveQuote.Plain p := by
  refine ⟨h.quoteDepth.imp_right fun hdepth => ?_, h.inTable⟩
  show context.quoteDepth - 1 = 0
  omega

/-- A block that is no quotation puts no bar before the lines. -/
theorem BlockContext.Plain.enter {context : BlockContext} (h : context.Plain p) (role : TagRole)
    (hquote : p '│' = true ∨ role ≠ .quote) : (role.enter context).Plain p := by
  cases role with
  | item => exact h.nextMarker
  | quote => exact ⟨Or.inl (hquote.resolve_right fun hne => hne rfl), h.inTable⟩
  | _ => exact ⟨h.quoteDepth, h.inTable⟩

/-- The end of a block puts no bar before the lines. -/
theorem BlockContext.Plain.leave {context : BlockContext} (h : context.Plain p) (role : TagRole) :
    (role.leave context).Plain p := by
  cases role with
  | title =>
    rw [TagRole.leave]
    split
    · exact ⟨h.quoteDepth, h.inTable⟩
    · exact h
  | quote => exact h.leaveQuote
  | _ => exact ⟨h.quoteDepth, h.inTable⟩

namespace Flow

variable {settings settings' : Settings} {flow a b : Flow}

/-! ## (1) Lines of their own -/

/-- The start of an item writes its indentation and its marker into the line. -/
theorem exists_atItem (settings : Settings) (flow : Flow) : ∃ spans,
    flow.atItem settings = { flow with
      context := flow.context.nextMarker.2
      current := flow.indent settings ++ flow.context.nextMarker.1
      continuation := flow.indent settings ++
        List.replicate (Text.width flow.context.nextMarker.1) ' '
      hasWords := false
      spans } := by
  unfold atItem
  dsimp only
  split
  all_goals exact ⟨_, rfl⟩

/-- The line of an image is put on the page, and the next line is empty. -/
theorem exists_atImage (settings : Settings) (flow : Flow) (source alt : Text) :
    ∃ page spans, flow.atImage settings source alt =
        { flow with page, spans, current := [], hasWords := false } ∧
      page.lines = flow.page.lines ++ [flow.indent settings ++ imageLabel alt] :=
  ⟨_, _, rfl, rfl⟩

/-- The state with one element of inline code less. -/
def leaveCode (flow : Flow) : Flow := { flow with codeDepth := flow.codeDepth - 1 }

/-- The end of inline code takes a mark back that is waiting, or puts one behind the last word. -/
theorem closeCode_eq (flow : Flow) :
    flow.closeCode settings =
      if flow.codeDepth = 0 then flow
      else if !flow.pendingMark.isEmpty then flow.leaveCode.unmarked
      else if flow.hasWords then flow.leaveCode.atCodeEnd.fitWord settings
      else flow.leaveCode := rfl

/-- The state after the line of preformatted text that is open, if one is. -/
def endPreLine (flow : Flow) (settings : Settings) : Flow :=
  if flow.preLineOpen then flow.commitPre settings else flow

/-- No line of preformatted text is open behind its end. -/
theorem endPreLine_preLineOpen (flow : Flow) : (flow.endPreLine settings).preLineOpen = false := by
  unfold endPreLine
  split
  · rfl
  · rename_i hopen
    simpa using hopen

/-- The end of preformatted text ends its last line first. -/
theorem closePre_eq (flow : Flow) :
    flow.closePre settings =
      if flow.context.inPre then
        ((flow.endPreLine settings).updateContext ({ · with inPre := false })).newLine
      else flow := rfl

/-- Without a table, the line of preformatted text and the current line are completed. -/
theorem flush_eq (h : flow.context.table.inTable = false) :
    flow.flush settings =
      let ended := if flow.context.inPre then flow.endPreLine settings else flow
      if ended.current.isEmpty then ended else ended.commit := by
  unfold flush endPreLine
  cases hpre : flow.context.inPre <;> cases hopen : flow.preLineOpen <;> simp [h]

/-- The mark that ends inline code leaves the gap before the word alone. -/
theorem Ready.atCodeEnd (h : flow.Ready p settings) (hw : flow.hasWords = true) :
    flow.atCodeEnd.Ready p settings where
  begun := by
    have hholds : flow.atCodeEnd.HoldsWord := (h.begun.word hw).2.atCodeEnd
    exact ⟨h.begun.pendingMark, fun _ => ⟨(h.begun.word hw).1, hholds⟩,
      fun hw' => absurd hw' (by simp [hholds.hasWords])⟩
  plain := h.plain
  continuation := h.continuation
  apart _ hmovable := h.apart_append hw hmovable ['\x60']

namespace InStep

variable (h : InStep p settings settings' a b)
include h

/-- The start of an item, with its marker. -/
theorem atItem (hnil : a.current = []) :
    InStep p settings settings' (a.atItem settings) (b.atItem settings') := by
  have hw : a.hasWords = false := h.left.begun.hasWords_eq_false hnil
  have hbegun := h.left.begun.change (.item a hnil)
  have hbegun' := h.right.begun.change (.item b (h.current_eq_nil.1 hnil))
  obtain ⟨spans, hitem⟩ := exists_atItem settings a
  obtain ⟨spans', hitem'⟩ := exists_atItem settings' b
  rw [hitem] at hbegun ⊢
  rw [hitem'] at hbegun' ⊢
  -- Lines after the first one continue under the text of the item.
  have hcontinuation : ∀ {c : Flow} {s : Settings}, c.Ready p s →
      ∀ d ∈ c.indent s ++ List.replicate (Text.width c.context.nextMarker.1) ' ', p d = true := by
    intro c s hc d hd
    rcases List.mem_append.1 hd with hd | hd
    · exact hc.plain.indent h.space _ d hd
    · rw [List.eq_of_mem_replicate hd]
      exact h.space
  refine h.next_bare (.of_bare hbegun h.left.plain.nextMarker (hcontinuation h.left) rfl)
    (.of_bare hbegun' h.right.plain.nextMarker (hcontinuation h.right) rfl)
    (congrArg (fun c : Control => { c with context := c.context.nextMarker.2, hasWords := false })
      h.control) ?_ (h.bare hw).2
  show a.indent settings ++ a.context.nextMarker.1 = b.indent settings' ++ b.context.nextMarker.1
  rw [h.indent, h.context]

/-- Items start behind the same line. -/
theorem startItem :
    InStep p settings settings' (a.startItem settings) (b.startItem settings') :=
  h.newLine.atItem (newLine_current a)

/-- The line of an image. -/
theorem atImage (hnil : a.current = []) (source alt : Text) :
    InStep p settings settings' (a.atImage settings source alt)
      (b.atImage settings' source alt) := by
  have hw : a.hasWords = false := h.left.begun.hasWords_eq_false hnil
  have hbegun := h.left.begun.change (.image a hnil source alt)
  have hbegun' := h.right.begun.change (.image b (h.current_eq_nil.1 hnil) source alt)
  obtain ⟨page, spans, himage, hlines⟩ := exists_atImage settings a source alt
  obtain ⟨page', spans', himage', hlines'⟩ := exists_atImage settings' b source alt
  rw [himage] at hbegun ⊢
  rw [himage'] at hbegun' ⊢
  refine h.next_bare (.of_bare hbegun h.left.plain h.left.continuation rfl)
    (.of_bare hbegun' h.right.plain h.right.continuation rfl)
    (congrArg (fun c : Control => { c with hasWords := false }) h.control) rfl ?_
  show SameText p page.lines page'.lines
  rw [hlines, hlines', h.indent]
  exact (h.bare hw).2.concat_self h.space _

/-- The lines of images are the same but for their indentation. -/
theorem addImage (attributes : List Attribute) :
    InStep p settings settings' (a.addImage settings attributes)
      (b.addImage settings' attributes) := by
  unfold Flow.addImage
  cases Attribute.nonempty? attributes "src".toList with
  | none => exact h
  | some source => exact (h.newLine.atImage (newLine_current a) source _).newLine

/-! ## (2) Blocks -/

/-- Anchors are recorded beside the lines. -/
theorem recordAnchor (attributes : List Attribute) :
    InStep p settings settings' (a.recordAnchor attributes) (b.recordAnchor attributes) := by
  have hleft : Change settings a _ := .anchor a attributes
  have hright : Change settings' b _ := .anchor b attributes
  obtain ⟨anchors, hanchors⟩ := exists_recordAnchor a attributes
  obtain ⟨anchors', hanchors'⟩ := exists_recordAnchor b attributes
  rw [hanchors] at hleft ⊢
  rw [hanchors'] at hright ⊢
  exact h.keep hleft.chain hright.chain h.left.plain h.control rfl rfl

/-- Elements are put on the stack beside the lines. -/
theorem pushElement (name : Text) (attributes : List Attribute) :
    InStep p settings settings' (a.pushElement settings name attributes)
      (b.pushElement settings' name attributes) := by
  refine h.keep (Change.push a name attributes).chain (Change.push b name attributes).chain
    h.left.plain ?_ rfl rfl
  show { a.control with styles := a.control.styles.push name attributes settings.classStyles } =
    { b.control with styles := b.control.styles.push name attributes settings'.classStyles }
  rw [h.control, h.alike.classStyles]

/-- Changes of the context that no line depends on. -/
theorem quietContext (f : BlockContext → BlockContext) (hplain : (f a.context).Plain p)
    (hleft : Change settings a (a.updateContext f))
    (hright : Change settings' b (b.updateContext f)) :
    InStep p settings settings' (a.updateContext f) (b.updateContext f) :=
  h.keep hleft.chain hright.chain hplain
    (congrArg (fun c : Control => { c with context := f c.context }) h.control) rfl rfl

/-- Preformatted text begins on a line of its own. -/
theorem openPre :
    InStep p settings settings' (a.openBlock settings .pre) (b.openBlock settings' .pre) := by
  have hblock := h.block ({ · with inPre := true })
    ⟨h.left.plain.quoteDepth, h.left.plain.inTable⟩
  have hchange : ∀ (s : Settings) (c : Flow), c.current = [] →
      Changes s c { c with preFresh := true, preLineOpen := false } :=
    fun s c hnil => (Change.block c hnil _ _ _).chain
  exact hblock.keep (hchange settings _ (newLine_current a))
    (hchange settings' _ (newLine_current b)) hblock.left.plain
    (congrArg (fun c : Control => { c with preFresh := true, preLineOpen := false })
      hblock.control) rfl rfl

/-- The mark that begins inline code waits for the next word. -/
theorem openCode :
    InStep p settings settings' (a.openBlock settings .code) (b.openBlock settings' .code) := by
  have hpre : a.context.inPre = b.context.inPre := by rw [h.context]
  rw [Flow.openBlock, Flow.openBlock, hpre]
  split
  · exact h
  · have hchange : ∀ (s : Settings) (c : Flow),
        Changes s c { c with codeDepth := c.codeDepth + 1, pendingMark := ['\x60'] } := by
      intro s c
      have hdepth : Change s c { c with codeDepth := c.codeDepth + 1 } :=
        .quiet c _ _ _ _ _ _ _ _ _ _ _
      exact hdepth.chain.tail (.pendingMark _ _ (Or.inr rfl))
    exact h.keep (hchange settings a) (hchange settings' b) h.left.plain
      (congrArg (fun c : Control =>
        { c with codeDepth := c.codeDepth + 1, pendingMark := ['\x60'] }) h.control) rfl rfl

/-- A heading begins on a line of its own. -/
theorem openHeading (level : Nat) :
    InStep p settings settings' (a.openBlock settings (.heading level))
      (b.openBlock settings' (.heading level)) := by
  have hblock := h.block ({ · with headingLevel := level, headingText := [] })
    ⟨h.left.plain.quoteDepth, h.left.plain.inTable⟩
  exact hblock.keep (Change.headingLine _).chain (Change.headingLine _).chain hblock.left.plain
    hblock.control rfl rfl

/-- Titles begin behind the same line. -/
theorem openTitle : InStep p settings settings' a.openTitle b.openTitle := by
  have hstyles : a.styles = b.styles := congrArg Control.styles h.control
  unfold Flow.openTitle
  rw [hstyles]
  refine h.newLine.block _ ?_
  rw [newLine_context]
  exact ⟨h.left.plain.quoteDepth, h.left.plain.inTable⟩

/-- Titles end with the same line. -/
theorem closeTitle : InStep p settings settings' a.closeTitle b.closeTitle :=
  (h.block _ ⟨h.left.plain.quoteDepth, h.left.plain.inTable⟩).newLine

/-- The mark that ends inline code moves to the next line with its word. -/
theorem codeEnd (hw : a.hasWords = true) :
    InStep p settings settings' (a.atCodeEnd.fitWord settings) (b.atCodeEnd.fitWord settings') := by
  have hw' : b.hasWords = true := h.hasWords ▸ hw
  have hready := h.left.atCodeEnd hw
  have hready' := h.right.atCodeEnd hw'
  have hcontrol : ∀ {s : Settings} {c : Flow}, c.hasWords = true →
      (c.atCodeEnd.fitWord s).control = c.control :=
    fun {_ c} hw => fitWord_control (show c.atCodeEnd.hasWords = true from hw)
  refine h.next_word (hready.fitWord (h.left.begun.change (.codeEnd a hw)))
    (hready'.fitWord (h.right.begun.change (.codeEnd b hw'))) ?_ ?_ ?_
  · rw [hcontrol hw, hcontrol hw', h.control]
  · exact (congrArg Control.hasWords (hcontrol hw)).trans hw
  · have hwritten : ∀ c : Flow, c.atCodeEnd.written = c.written ++ ['\x60'] :=
      fun c => (List.append_assoc _ _ _).symm
    rw [hready.written_fitWord h.space h.lineBreak hw,
      hready'.written_fitWord h.space h.lineBreak hw', hwritten, hwritten]
    exact Text.collapseBy_append_congr h.space h.written rfl

/-- Inline code ends behind the same word. -/
theorem closeCode :
    InStep p settings settings' (a.closeCode settings) (b.closeCode settings') := by
  have hleave : InStep p settings settings' a.leaveCode b.leaveCode :=
    h.keep (Change.quiet _ _ _ _ _ _ _ _ _ _ _ _).chain
      (Change.quiet _ _ _ _ _ _ _ _ _ _ _ _).chain h.left.plain
      (congrArg (fun c : Control => { c with codeDepth := c.codeDepth - 1 }) h.control) rfl rfl
  have hdepth : a.codeDepth = b.codeDepth := congrArg Control.codeDepth h.control
  have hmark : a.pendingMark = b.pendingMark := congrArg Control.pendingMark h.control
  rw [closeCode_eq, closeCode_eq, hdepth, hmark, ← h.hasWords]
  split
  · exact h
  · split
    · exact hleave.keep (Change.pendingMark _ _ (Or.inl rfl)).chain
        (Change.pendingMark _ _ (Or.inl rfl)).chain h.left.plain
        (congrArg (fun c : Control => { c with pendingMark := [] }) hleave.control) rfl rfl
    · split
      · rename_i hw
        exact hleave.codeEnd hw
      · exact hleave

/-- Headings are recorded beside the lines. -/
theorem closeHeading : InStep p settings settings' a.closeHeading b.closeHeading := by
  have hnext := h.newLine
  refine hnext.keep (recordHeading_changes a) (recordHeading_changes b)
    ⟨hnext.left.plain.quoteDepth, hnext.left.plain.inTable⟩ ?_ rfl rfl
  exact congrArg (fun c : Control =>
    { c with context := { c.context with headingLevel := 0, headingText := [] } }) hnext.control

/-- Lines of preformatted text are the same in both runs. -/
theorem endPreLine (hpre : a.context.inPre = true) :
    InStep p settings settings' (a.endPreLine settings) (b.endPreLine settings') := by
  have hopen : a.preLineOpen = b.preLineOpen := congrArg Control.preLineOpen h.control
  unfold Flow.endPreLine
  rw [hopen]
  split
  · exact h.commitPre hpre
  · exact h

/-- Preformatted text ends behind the same line. -/
theorem closePre :
    InStep p settings settings' (a.closePre settings) (b.closePre settings') := by
  have hpre : a.context.inPre = b.context.inPre := by rw [h.context]
  rw [closePre_eq, closePre_eq, hpre]
  split
  · rename_i hin
    have hend := h.endPreLine (hpre ▸ hin)
    exact (hend.quietContext _ ⟨hend.left.plain.quoteDepth, hend.left.plain.inTable⟩
      (.leavePre _ (endPreLine_preLineOpen a)) (.leavePre _ (endPreLine_preLineOpen b))).newLine
  · exact h

/-- Elements end beside the lines, and a title ends with the same line. -/
theorem popElement (name : Text) :
    InStep p settings settings' (a.popElement name) (b.popElement name) := by
  have hstyles : a.styles = b.styles := congrArg Control.styles h.control
  unfold Flow.popElement
  rw [hstyles]
  cases b.styles.pop? name with
  | none =>
    exact h.keep (Change.quiet _ _ _ _ _ _ _ _ _ _ _ _).chain
      (Change.quiet _ _ _ _ _ _ _ _ _ _ _ _).chain h.left.plain h.control rfl rfl
  | some popped =>
    obtain ⟨serial, styles⟩ := popped
    have hpop : InStep p settings settings' { a with styles } { b with styles } :=
      h.keep (Change.quiet _ _ _ _ _ _ _ _ _ _ _ _).chain
        (Change.quiet _ _ _ _ _ _ _ _ _ _ _ _).chain h.left.plain
        (congrArg (fun c : Control => { c with styles }) h.control) rfl rfl
    have hserial : a.context.titleSerial = b.context.titleSerial := by rw [h.context]
    dsimp only
    rw [hserial]
    split
    · exact hpop.closeTitle
    · exact hpop

/-! ## (3) Text -/

/-- Line breaks end the same line. -/
theorem breakLine :
    InStep p settings settings' (a.breakLine settings) (b.breakLine settings') := by
  have hpre : a.context.inPre = b.context.inPre := by rw [h.context]
  unfold Flow.breakLine
  rw [h.left.plain.inTable, h.right.plain.inTable, ← hpre]
  simp only [Bool.false_and, Bool.false_eq_true, if_false]
  split
  · rename_i hin
    exact h.addPre hin _
  · exact h.newLine

/-- The text of a heading is collected beside the lines. -/
theorem collectHeading (s : Text) :
    InStep p settings settings' (a.collectHeading s) (b.collectHeading s) := by
  unfold Flow.collectHeading
  rw [h.context]
  split
  · exact h.quietContext _ ⟨h.left.plain.quoteDepth, h.left.plain.inTable⟩
      (.quiet a _ _ _ _ _ _ _ _ _ _ _) (.quiet b _ _ _ _ _ _ _ _ _ _ _)
  · exact h

/-- **Text.** -/
theorem feedText (s : Text) :
    InStep p settings settings' (a.feedText settings s) (b.feedText settings' s) := by
  have hheading := h.collectHeading s
  rw [feedText_eq, feedText_eq, h.left.plain.inTable, h.right.plain.inTable, h.context]
  simp only [Bool.false_eq_true, if_false]
  split
  · exact h
  · split
    · rename_i hpre
      exact hheading.addPre (by simpa [h.context] using hpre) s
    · rename_i hpre
      exact hheading.addText (by simpa [h.context] using hpre) s

/-! ## (4) Runs -/

/-- **An operation keeps two runs in step**, unless it is laid out as wide as the page. -/
theorem perform {operation : Operation} (hwide : operation.isWide = false)
    (hquote : p '│' = true ∨ operation ≠ .enter .quote) :
    InStep p settings settings' (a.perform settings operation)
      (b.perform settings' operation) := by
  -- The two states have the same blocks, so every operation takes the same branch in both of them.
  have hplain := h.left.plain
  have hquiet : ∀ f : BlockContext → BlockContext, (f a.context).Plain p →
      (∀ (s : Settings) (c : Flow), Change s c (c.updateContext f)) →
      InStep p settings settings' (a.updateContext f) (b.updateContext f) := fun f hf hchange =>
    h.quietContext f hf (hchange settings a) (hchange settings' b)
  cases operation with
  | text s => exact h.feedText s
  | lineBreak => exact h.breakLine
  | newLine => exact h.newLine
  | paragraphBreak => exact h.paragraphBreak
  | enter role => exact h.block role.enter (hplain.enter role (hquote.imp_right (· ∘ congrArg _)))
  | leave role => exact h.block role.leave (hplain.leave role)
  | item => exact h.startItem
  | head begins =>
    exact hquiet ({ · with inHead := begins }) ⟨hplain.quoteDepth, hplain.inTable⟩
      fun _ c => .quiet c _ _ _ _ _ _ _ _ _ _ _
  | raw begins =>
    exact hquiet (fun c => { c with rawDepth := if begins then c.rawDepth + 1 else c.rawDepth - 1 })
      ⟨hplain.quoteDepth, hplain.inTable⟩ fun _ c => .quiet c _ _ _ _ _ _ _ _ _ _ _
  | openPre => exact h.openPre
  | closePre => exact h.closePre
  | openHeading level => exact h.openHeading level
  | closeHeading => exact h.closeHeading
  | openCode => exact h.openCode
  | closeCode =>
    rw [Flow.perform, Flow.perform, Flow.closeBlock, Flow.closeBlock, h.context]
    split
    · exact h
    · exact h.closeCode
  | openTitle attributes =>
    rw [Flow.perform, Flow.perform, h.context, opensTitle, opensTitle, h.alike.classStyles]
    split
    · exact h.openTitle
    · exact h
  | closeTitle =>
    rw [Flow.perform, Flow.perform, Flow.closeBlock, Flow.closeBlock, h.context]
    split
    · exact h.closeTitle
    · exact h
  | image attributes => exact h.addImage attributes
  | anchor attributes => exact h.recordAnchor attributes
  | push name attributes => exact h.pushElement name attributes
  | pop name => exact h.popElement name
  -- The operations that are left put lines of their own on the page, of a given width.
  | _ => cases hwide

omit h in
/-- **Operations keep two runs in step**, one after the other. -/
theorem performAll {operations : List Operation}
    (hwide : ∀ operation ∈ operations, operation.isWide = false)
    (hquote : ∀ operation ∈ operations, p '│' = true ∨ operation ≠ .enter .quote) {a b : Flow}
    (h : InStep p settings settings' a b) :
    InStep p settings settings' (a.performAll settings operations)
      (b.performAll settings' operations) := by
  induction operations generalizing a b with
  | nil => exact h
  | cons operation operations ih =>
    obtain ⟨hfirst, hwides⟩ := List.forall_mem_cons.1 hwide
    obtain ⟨hbar, hquotes⟩ := List.forall_mem_cons.1 hquote
    exact ih hwides hquotes (h.perform hfirst hbar)

/-- **A token keeps two runs in step**, unless it is laid out as wide as the page. -/
theorem feed (token : Token) (hwide : token.isWide = false)
    (hquote : p '│' = true ∨ token.role ≠ .quote) :
    InStep p settings settings' (a.feed settings token) (b.feed settings' token) := by
  have hhides : a.hidesToken token = b.hidesToken token := by
    cases token <;> simp [hidesToken, hides, h.context]
  rw [feed_eq_performAll, feed_eq_performAll, hhides]
  split
  · exact h
  · refine h.performAll (Token.isWide_of_mem_operations hwide) fun operation hmem => ?_
    exact hquote.imp_right fun hrole => Token.ne_enter_quote_of_mem_operations hrole hmem

omit h in
/-- **Tokens keep two runs in step.** -/
theorem feedAll {tokens : List Token} (hwide : ∀ token ∈ tokens, token.isWide = false)
    (hquote : ∀ token ∈ tokens, p '│' = true ∨ token.role ≠ .quote) {a b : Flow}
    (h : InStep p settings settings' a b) :
    InStep p settings settings' (a.feedAll settings tokens) (b.feedAll settings' tokens) := by
  induction tokens generalizing a b with
  | nil => exact h
  | cons token tokens ih =>
    have hstep := h.feed token (hwide token List.mem_cons_self) (hquote token List.mem_cons_self)
    exact ih (fun t ht => hwide t (List.mem_cons_of_mem _ ht))
      (fun t ht => hquote t (List.mem_cons_of_mem _ ht)) hstep

/-- The line that is being filled at the end is the last one. -/
theorem lines_end :
    SameText p (if a.current.isEmpty then a else a.commit).page.lines
      (if b.current.isEmpty then b else b.commit).page.lines := by
  by_cases hnil : a.current = []
  · rw [if_pos (by simpa using hnil), if_pos (by simpa using h.current_eq_nil.1 hnil)]
    exact (h.bare (h.left.begun.hasWords_eq_false hnil)).2
  · rw [if_neg (by simpa using hnil), if_neg (by simpa using mt h.current_eq_nil.2 hnil)]
    exact h.lines_commit hnil

/-- What is pending at the end is completed. -/
theorem lines_flush :
    SameText p (a.flush settings).page.lines (b.flush settings').page.lines := by
  rw [flush_eq h.left.plain.inTable, flush_eq h.right.plain.inTable, ← h.context]
  by_cases hpre : a.context.inPre = true
  · simp only [hpre, if_true]
    exact (h.endPreLine hpre).lines_end
  · simp only [hpre, Bool.false_eq_true, if_false]
    exact h.lines_end

end InStep

/-- **Reflow.** The pages of two runs in lines of different widths show the same text, if their
tokens lay out nothing as wide as the page. -/
theorem run_reflow (hspace : p ' ' = true) (hbreak : p '\n' = true)
    (halike : settings.Alike settings') {tokens : List Token}
    (hwide : ∀ token ∈ tokens, token.isWide = false)
    (hquote : ∀ token ∈ tokens, p '│' = true ∨ token.role ≠ .quote) :
    Text.collapseBy p (Text.joinLines (run settings tokens).page.lines) =
      Text.collapseBy p (Text.joinLines (run settings' tokens).page.lines) := by
  have hready : ∀ s : Settings, Ready p s {} := fun s =>
    .of_bare (begun_of_empty (Or.inl rfl) rfl rfl) ⟨Or.inr rfl, rfl⟩ (by simp) rfl
  have hstart : InStep p settings settings' {} {} :=
    ⟨hspace, hbreak, halike, hready _, hready _, rfl, rfl, fun _ => ⟨rfl, .refl p _⟩⟩
  exact (hstart.feedAll hwide hquote).lines_flush.shown

end Flow

end ChapterLayout
