import ChapterLayout.Proofs.Flow.Outline
import ChapterLayout.Proofs.Flow.Ticks

/-! # What tokens do where text goes to the lines

Where text goes to the lines of the page, every closing tag of well-nested tokens closes the
innermost element, so what a token does does not depend on the names of the open elements:

* **`Flow.act`** — what a token does there;
* **`Flow.feedAll_eq_actAll`** — well-nested tokens outside tables, preformatted text, the head and
  raw content do just that;
* **`Flow.Wordless`** — whether a step lays out no word and leaves the marks of inline code alone,
  so that the mark behind the last word may be put there before the step or after it;
* **`Flow.wordless_perform`** — every operation that begins, ends or puts lines on the page is such
  a step, and adds the backticks of its line;
* **`Flow.wordless_act`** — so is a token without words, unless it is a tag of inline code;
* **`Flow.addsTicks_actAll`** — tokens add their backticks to the lines, unless they are tags of
  inline code. -/

namespace ChapterLayout

/-- Whether text goes to the lines of the page inside the elements of a role. -/
def TagRole.takesText : TagRole → Bool
  | raw => false
  | table => false
  | tablePart => false
  | head => false
  | pre => false
  | _ => true

/-- Whether a token is no tag of a table, of preformatted text, of the head or of raw content. -/
def Token.takesText : Token → Bool
  | .opening name _ => (TagRole.ofName name).takesText
  | .closing name => (TagRole.ofName name).takesText
  | _ => true

/-- Whether a token is a tag of inline code. -/
def Token.isCode : Token → Bool
  | .opening name _ => TagRole.ofName name == .code
  | .closing name => TagRole.ofName name == .code
  | _ => false

/-- Whether a token is a text with words. -/
def Token.hasWords : Token → Bool
  | .text s => !(Text.words Text.isFlowBlank s).isEmpty
  | _ => false

namespace TagRole

variable {role : TagRole}

/-- Elements in which text goes to the lines stand on the stack. -/
theorem isStacked_of_takesText (h : role.takesText = true) : role.isStacked = true := by
  cases role <;> first | rfl | cases h

end TagRole

namespace Flow

variable {settings : Settings} {flow a b : Flow} {f g : Flow → Flow} {m n : Nat} {name s : Text}
  {attributes : List Attribute} {token : Token} {tokens : List Token} {names : List Text}

/-! ## (1) Acts -/

/-- The state without the innermost element, which ends the title that it opened. -/
def dropElement (flow : Flow) : Flow :=
  match flow.styles.elements with
  | [] => flow
  | e :: elements =>
    let next := { flow with styles := flow.styles.leave elements e.serial }
    if flow.context.titleSerial = some e.serial then next.closeTitle else next

/-- The state inside an element whose block is opened. -/
def enterElement (flow : Flow) (settings : Settings) (name : Text) (attributes : List Attribute) :
    Flow :=
  let pushed := (flow.recordAnchor attributes).pushElement settings name attributes
  if !pushed.context.inTitle && opensTitle settings attributes then pushed.openTitle else pushed

/-- The state behind an element that is closed in its own tag, before its anchor is recorded. -/
def emptyElement (flow : Flow) (settings : Settings) (name : Text) (attributes : List Attribute) :
    Flow :=
  if name == "br".toList then flow.newLine
  else if name == "img".toList then flow.addImage settings attributes
  else if name == "hr".toList then flow.addRule settings
  else if TagRole.breaksLine name then flow.newLine
  else flow

/-- What a token does where text goes to the lines of the page, if a closing tag closes the
innermost element. -/
def act (flow : Flow) (settings : Settings) : Token → Flow
  | .text s => (flow.collectHeading s).addText settings s
  | .opening name attributes =>
    (flow.openBlock settings (TagRole.ofName name)).enterElement settings name attributes
  | .closing name => (flow.closeBlock settings (TagRole.ofName name)).dropElement
  | .empty name attributes => (flow.emptyElement settings name attributes).recordAnchor attributes

/-- What tokens do one after the other. -/
def actAll (flow : Flow) (settings : Settings) (tokens : List Token) : Flow :=
  tokens.foldl (fun flow token => flow.act settings token) flow

/-- No tokens do nothing. -/
@[simp] theorem actAll_nil (flow : Flow) : flow.actAll settings [] = flow := rfl

/-- The first token comes first. -/
@[simp] theorem actAll_cons (flow : Flow) (token : Token) (tokens : List Token) :
    flow.actAll settings (token :: tokens) = (flow.act settings token).actAll settings tokens := rfl

/-- Tokens act one after the other. -/
@[simp] theorem actAll_append (flow : Flow) (tokens more : List Token) :
    flow.actAll settings (tokens ++ more) =
      (flow.actAll settings tokens).actAll settings more := List.foldl_append

/-- The operations of an element that is closed in its own tag, if a line break ends the line. -/
def lineOperations (name : Text) (attributes : List Attribute) : List Operation :=
  if name == "br".toList then [.newLine] else emptyOperations name attributes

/-- An opening tag opens its block, records its anchor and puts its element on the stack. -/
theorem act_opening (flow : Flow) (name : Text) (attributes : List Attribute) :
    flow.act settings (.opening name attributes) =
      flow.performAll settings ((TagRole.ofName name).opening ++
        [.anchor attributes, .push name attributes, .openTitle attributes]) := by
  rw [performAll_append, ← openBlock_eq_performAll]
  rfl

/-- A closing tag closes its block and then drops the innermost element. -/
theorem act_closing (flow : Flow) (name : Text) :
    flow.act settings (.closing name) =
      (flow.performAll settings (TagRole.ofName name).closing).dropElement := by
  rw [act, closeBlock_eq_performAll]

/-- An element that is closed in its own tag has operations, and its anchor comes last. -/
theorem act_empty (flow : Flow) (name : Text) (attributes : List Attribute) :
    flow.act settings (.empty name attributes) =
      flow.performAll settings (lineOperations name attributes ++ [.anchor attributes]) := by
  have hlines : flow.emptyElement settings name attributes =
      flow.performAll settings (lineOperations name attributes) := by
    unfold emptyElement lineOperations emptyOperations
    split_ifs <;> rfl
  rw [performAll_append, ← hlines]
  rfl

/-- The names of the open elements, the innermost first. -/
def elementNames (flow : Flow) : List Text := flow.styles.elements.map OpenElement.name

/-- If the innermost element has the name of the tag, it is the one that is closed. -/
theorem popElement_eq_dropElement (h : flow.elementNames = name :: names) :
    flow.popElement name = flow.dropElement := by
  obtain ⟨e, elements, helements, rfl, -⟩ := List.map_eq_cons_iff.1 h
  have hfind : (e :: elements).find? (·.name == e.name) = some e :=
    List.find?_cons_of_pos (beq_self_eq_true e.name)
  have herase : (e :: elements).eraseP (·.name == e.name) = elements :=
    List.eraseP_cons_of_pos (beq_self_eq_true e.name)
  simp only [popElement, Stack.pop?, dropElement, helements, hfind, herase, Option.map_some]

/-- Without open elements nothing is dropped. -/
theorem dropElement_of_nil (h : flow.styles.elements = []) : flow.dropElement = flow := by
  simp only [dropElement, h]

/-- The innermost element is dropped, and a title ends that it opened. -/
theorem dropElement_of_cons {e : OpenElement} {elements : List OpenElement}
    (h : flow.styles.elements = e :: elements) :
    flow.dropElement =
      if flow.context.titleSerial = some e.serial then
        closeTitle { flow with styles := flow.styles.leave elements e.serial }
      else { flow with styles := flow.styles.leave elements e.serial } := by
  simp only [dropElement, h]

/-- One name less is open. -/
theorem dropElement_elementNames (flow : Flow) :
    flow.dropElement.elementNames = flow.elementNames.tail := by
  unfold dropElement elementNames
  split
  · rename_i h
    rw [h]
    rfl
  · rename_i e elements h
    rw [h]
    dsimp only
    split
    · exact congrArg (fun stack : Stack => stack.elements.map OpenElement.name)
        (leadsOnlyTo_closeTitle _).styles
    · rfl

/-- **A token does what it does where text goes to the lines,** if a closing tag closes the
innermost element. -/
theorem feed_eq_act (h : flow.TakesText) (htoken : token.takesText = true)
    (hname : ∀ name, token = .closing name → ∃ names, flow.elementNames = name :: names) :
    flow.feed settings token = flow.act settings token := by
  cases token with
  | text s => exact h.feedText s
  | opening name attributes =>
    exact openTag_stacked (tracks_of_shown h.inHead (TagRole.isStacked_of_takesText htoken))
  | closing name =>
    obtain ⟨names, hnames⟩ := hname name rfl
    -- The end of the block leaves the open elements to the end of the element.
    have hblock := (closeBlock_leadsTo settings flow (TagRole.ofName name)).styles
    have hclosed :
        (flow.closeBlock settings (TagRole.ofName name)).elementNames = name :: names := by
      rw [elementNames, hblock]
      exact hnames
    exact (closeTag_stacked (tracks_of_shown h.inHead
      (TagRole.isStacked_of_takesText htoken))).trans (popElement_eq_dropElement hclosed)
  | empty name attributes =>
    simp [feed, act, emptyTag, emptyElement, breakLine, h.inHead, h.inTable, h.inPre]

/-! ## (2) Well-nested tokens -/

/-- Where text goes is decided by the context. -/
theorem TakesText.of_context (h : a.TakesText) (hcontext : b.context = a.context) :
    b.TakesText := by
  constructor
  all_goals rw [hcontext]
  · exact h.rawDepth
  · exact h.inHead
  · exact h.inPre
  · exact h.inTable

/-- Titles do not decide where text goes. -/
theorem TakesText.of_title (h : a.TakesText) {inTitle : Bool} {titleSerial : Option Nat}
    (hcontext : b.context = { a.context with inTitle, titleSerial }) : b.TakesText := by
  constructor
  all_goals rw [hcontext]
  · exact h.rawDepth
  · exact h.inHead
  · exact h.inPre
  · exact h.inTable

/-- Text goes to the same place if the draft is left alone, and whether text is preformatted. -/
theorem TakesText.of_same (h : a.TakesText) (hdraft : Part.Same a b .draft)
    (hpre : Part.Same a b .pre) : b.TakesText :=
  have hdraft : SameDraft a b := hdraft
  ⟨hdraft.rawDepth.trans h.rawDepth, hdraft.inHead.trans h.inHead, Eq.trans hpre h.inPre,
    (congrArg TableDraft.inTable hdraft.table).trans h.inTable⟩

/-- Text goes to the lines behind operations that do not decide where it goes. -/
theorem TakesText.performAll (h : flow.TakesText) {operations : List Operation}
    (hdraft : ∀ operation ∈ operations, Part.draft ∉ operation.touched)
    (hpre : ∀ operation ∈ operations, Part.pre ∉ operation.touched) :
    (flow.performAll settings operations).TakesText :=
  h.of_same (performAll_same .draft settings flow hdraft) (performAll_same .pre settings flow hpre)

/-- The end of an element does not change where text goes. -/
theorem TakesText.dropElement (h : flow.TakesText) : flow.dropElement.TakesText := by
  unfold Flow.dropElement
  split
  · exact h
  · dsimp only
    split
    · exact h.of_title (leadsOnlyTo_closeTitle _).context
    · exact h.of_context rfl

/-- **Text still goes to the lines** behind a token. -/
theorem TakesText.act (h : flow.TakesText) (htoken : token.takesText = true) :
    (flow.act settings token).TakesText := by
  cases token with
  | text s =>
    obtain ⟨headingText, hcollect⟩ := exists_collectHeading flow s
    have hcollected : (flow.collectHeading s).TakesText := by
      rw [hcollect]
      exact ⟨h.rawDepth, h.inHead, h.inPre, h.inTable⟩
    exact hcollected.of_context (addText_context _ s)
  | opening name attributes =>
    rw [act_opening]
    refine h.performAll ?_ ?_
    -- The roles that take text are gone through, for none of their operations touches what counts.
    all_goals
      rw [Token.takesText] at htoken
      cases hrole : TagRole.ofName name <;>
        simp_all [TagRole.takesText, TagRole.opening, Operation.touched, TagRole.touched]
  | closing name =>
    rw [act_closing]
    refine (h.performAll ?_ ?_).dropElement
    all_goals
      rw [Token.takesText] at htoken
      cases hrole : TagRole.ofName name <;>
        simp_all [TagRole.takesText, TagRole.closing, Operation.touched, TagRole.touched]
  -- A tag within a line only records its anchor, besides the operations of an image, a rule or a
  -- line break.
  | empty name attributes =>
    rw [act_empty]
    refine h.performAll ?_ ?_
    all_goals
      unfold lineOperations emptyOperations
      split_ifs <;> simp_all [Operation.touched]

/-- A closing tag of well-nested tokens closes the innermost element. -/
theorem eq_cons_of_openNames_closing {names' : List Text}
    (h : Token.openNames names [.closing name] = some names') : names = name :: names' := by
  cases names with
  | nil => cases h
  | cons other names =>
    have hcases : (if other = name then some names else none) = some names' := h
    split at hcases
    · rename_i hother
      rw [hother, Option.some.inj hcases]
    · cases hcases

/-- The elements that are open behind a token. -/
theorem elementNames_feed (h : flow.TakesText) (htoken : token.takesText = true)
    {base names' : List Text} (hopen : Token.openNames names [token] = some names')
    (hnames : flow.elementNames = names ++ base) :
    (flow.feed settings token).elementNames = names' ++ base := by
  cases token with
  | text s =>
    obtain rfl : names = names' := Option.some.inj hopen
    rw [feed, elementNames, (sameBlocks_feedText flow s).styles]
    exact hnames
  | empty name attributes =>
    obtain rfl : names = names' := Option.some.inj hopen
    rw [feed, elementNames, (sameBlocks_emptyTag flow name attributes).styles]
    exact hnames
  | opening name attributes =>
    obtain rfl : name :: names = names' := Option.some.inj hopen
    -- A tag that takes text is shown and acts on the stack.
    have htracks := tracks_of_shown h.inHead (TagRole.isStacked_of_takesText htoken)
    rw [feed, elementNames, (opened_openTag settings flow name attributes).styles, if_pos htracks]
    exact congrArg (List.cons name) hnames
  | closing name =>
    -- The element that is closed is the innermost one, so that the whole stack is known.
    obtain rfl := eq_cons_of_openNames_closing hopen
    have hact : flow.feed settings (.closing name) = flow.act settings (.closing name) :=
      feed_eq_act h htoken fun other hother => by
        obtain rfl := Token.closing.inj hother
        exact ⟨_, hnames⟩
    have hblock := (closeBlock_leadsTo settings flow (TagRole.ofName name)).styles
    rw [hact, act, dropElement_elementNames, elementNames, hblock]
    exact congrArg List.tail hnames

/-- A token of well-nested ones, and the elements that are open behind it. -/
theorem feed_next (settings : Settings) (h : flow.TakesText) (htoken : token.takesText = true)
    {base names' : List Text} (hopen : Token.openNames names (token :: tokens) = some names')
    (hnames : flow.elementNames = names ++ base) : ∃ between,
      flow.feed settings token = flow.act settings token ∧
        Token.openNames between tokens = some names' ∧
          (flow.act settings token).elementNames = between ++ base := by
  rw [← List.singleton_append, Token.openNames_append] at hopen
  obtain ⟨between, hbetween, hopen⟩ := Option.bind_eq_some_iff.1 hopen
  have hact : flow.feed settings token = flow.act settings token := by
    refine feed_eq_act h htoken fun name hname => ?_
    subst hname
    obtain rfl := eq_cons_of_openNames_closing hbetween
    exact ⟨_, hnames⟩
  refine ⟨between, hact, hopen, ?_⟩
  rw [← hact]
  exact elementNames_feed h htoken hbetween hnames

/-- **Well-nested tokens do what they do where text goes to the lines.** -/
theorem feedAll_eq_actAll (h : flow.TakesText) (htokens : ∀ t ∈ tokens, t.takesText = true)
    {base names' : List Text} (hopen : Token.openNames names tokens = some names')
    (hnames : flow.elementNames = names ++ base) :
    flow.feedAll settings tokens = flow.actAll settings tokens := by
  -- The elements that the tokens opened stand above those that were open before, by name.
  induction tokens generalizing flow names with
  | nil => rfl
  | cons token tokens ih =>
    obtain ⟨htoken, htokens⟩ := List.forall_mem_cons.1 htokens
    obtain ⟨between, hact, hrest, hnext⟩ := feed_next settings h htoken hopen hnames
    rw [feedAll, List.foldl_cons, hact]
    exact ih (h.act htoken) htokens hrest hnext

/-! ## (3) Steps without words -/

/-- The state with the mark that ends inline code behind the last word. -/
def codeEnd (flow : Flow) (settings : Settings) : Flow := flow.atCodeEnd.fitWord settings

/-- The mark behind a word looks at the outline only. -/
theorem blind_codeEnd (settings : Settings) : Blind (codeEnd · settings) := by
  have hmark : Blind atCodeEnd := blind_of_styles (fun _ => rfl) fun _ => rfl
  exact (blind_fitWord settings).comp hmark

/-- The mark behind a word leaves the context alone. -/
theorem codeEnd_context (settings : Settings) (flow : Flow) :
    (flow.codeEnd settings).context = flow.context :=
  (leadsOnlyTo_fitWord settings flow.atCodeEnd).context

/-- The mark behind a word leaves the open elements alone. -/
theorem codeEnd_styles (settings : Settings) (flow : Flow) :
    (flow.codeEnd settings).styles = flow.styles :=
  (leadsOnlyTo_fitWord settings flow.atCodeEnd).styles

/-- Whether a step lays out no word, puts a number of backticks into the lines, and leaves the marks
of inline code alone. Then a word on the line that is being filled was there before, and the mark
behind it may be put there before the step or after it. -/
structure Wordless (settings : Settings) (n : Nat) (f : Flow → Flow) : Prop where
  blind : Blind f
  changes : ∀ flow, Changes settings flow (f flow)
  pendingMark : ∀ flow, (f flow).pendingMark = flow.pendingMark
  codeDepth : ∀ flow, (f flow).codeDepth = flow.codeDepth
  codeEnd : ∀ flow, flow.Begun settings → (f flow).hasWords = true →
    flow.hasWords = true ∧
      (f (flow.codeEnd settings)).outline = ((f flow).codeEnd settings).outline
  ticks : AddsTicks n f

/-- Nothing is a step without words. -/
theorem wordless_id : Wordless settings 0 fun flow => flow :=
  ⟨blind_id, fun _ => Relation.ReflTransGen.refl, fun _ => rfl, fun _ => rfl,
    fun _ _ hw => ⟨hw, rfl⟩, addsTicks_id⟩

/-- Steps without words one after the other. -/
theorem Wordless.comp (hg : Wordless settings n g) (hf : Wordless settings m f) :
    Wordless settings (m + n) fun flow => g (f flow) where
  blind := hg.blind.comp hf.blind
  changes flow := (hf.changes flow).trans (hg.changes _)
  pendingMark flow := (hg.pendingMark _).trans (hf.pendingMark flow)
  codeDepth flow := (hg.codeDepth _).trans (hf.codeDepth flow)
  codeEnd flow hbegun hw := by
    -- The mark is moved over the second step first, behind which the word is known to be.
    obtain ⟨hbetween, hsecond⟩ := hg.codeEnd (f flow) (hbegun.changes (hf.changes flow)) hw
    obtain ⟨hfirst, houtline⟩ := hf.codeEnd flow hbegun hbetween
    exact ⟨hfirst, (hg.blind.congr houtline).trans hsecond⟩
  ticks := hg.ticks.comp hf.ticks

/-- Steps that add no backtick one after the other. -/
theorem Wordless.comp_zero (hg : Wordless settings 0 g) (hf : Wordless settings 0 f) :
    Wordless settings 0 fun flow => g (f flow) := hg.comp hf

/-- A choice by the open blocks. -/
theorem Wordless.ite {p : BlockContext → Prop} [DecidablePred p] (hf : Wordless settings n f)
    (hg : Wordless settings n g) (hp : ∀ flow : Flow, p flow.context ↔ p flow.outline.context) :
    Wordless settings n fun flow => if p flow.context then f flow else g flow where
  -- Outside the line the two states have the same blocks, so that both take the same branch.
  blind := hf.blind.ite hg.blind hp
  changes flow := by
    split
    · exact hf.changes flow
    · exact hg.changes flow
  pendingMark flow := by
    split
    · exact hf.pendingMark flow
    · exact hg.pendingMark flow
  codeDepth flow := by
    split
    · exact hf.codeDepth flow
    · exact hg.codeDepth flow
  codeEnd flow hbegun hw := by
    rw [codeEnd_context]
    split at hw
    · rename_i h
      rw [if_pos h, if_pos h]
      exact hf.codeEnd flow hbegun hw
    · rename_i h
      rw [if_neg h, if_neg h]
      exact hg.codeEnd flow hbegun hw
  ticks := hf.ticks.ite hg.ticks

/-- The end of a line leaves the marks of inline code alone. -/
theorem newLine_marks (flow : Flow) :
    flow.newLine.pendingMark = flow.pendingMark ∧ flow.newLine.codeDepth = flow.codeDepth := by
  unfold newLine
  dsimp only
  split_ifs <;> exact ⟨rfl, rfl⟩

/-- A step behind the end of a line, after which no line holds a word. -/
theorem wordless_behindLine (hblind : Blind g)
    (hchanges : ∀ flow : Flow, Changes settings flow.newLine (g flow.newLine))
    (hmarks : ∀ flow, (g flow).pendingMark = flow.pendingMark ∧ (g flow).codeDepth = flow.codeDepth)
    (hbare : ∀ flow : Flow, flow.hasWords = false → (g flow).hasWords = false)
    (hticks : AddsTicks n fun flow => g flow.newLine) :
    Wordless settings n fun flow => g flow.newLine where
  blind := hblind.comp blind_newLine
  changes flow := (newLine_changes flow).trans (hchanges flow)
  pendingMark flow := (hmarks _).1.trans (newLine_marks flow).1
  codeDepth flow := (hmarks _).2.trans (newLine_marks flow).2
  codeEnd flow hbegun hw := by
    rw [hbare _ (newLine_hasWords hbegun)] at hw
    exact absurd hw Bool.false_ne_true
  ticks := hticks

/-- A step between two lines. -/
theorem wordless_betweenLines (hblind : Blind g)
    (hchanges : ∀ flow : Flow, Changes settings flow.newLine (g flow.newLine))
    (hkeeps : ∀ flow, KeepsLines flow (g flow)) :
    Wordless settings 0 fun flow => g flow.newLine :=
  wordless_behindLine hblind hchanges
    (fun flow => ⟨(hkeeps flow).pendingMark, (hkeeps flow).codeDepth⟩)
    (fun flow h => (hkeeps flow).hasWords.trans h)
    ((addsTicks_of_keepsLines hkeeps).comp_zero addsTicks_newLine)

/-- A step that the outline does not show. -/
theorem wordless_of_outline (houtline : ∀ flow, (f flow).outline = flow.outline)
    (hchanges : ∀ flow, Changes settings flow (f flow))
    (hkeeps : ∀ flow, KeepsLines flow (f flow)) :
    Wordless settings 0 f where
  blind flow := by rw [houtline, houtline, outline_outline]
  changes := hchanges
  pendingMark flow := (hkeeps flow).pendingMark
  codeDepth flow := (hkeeps flow).codeDepth
  codeEnd flow _ hw := ⟨(hkeeps flow).hasWords.symm.trans hw,
    (houtline _).trans ((blind_codeEnd settings).congr (houtline flow)).symm⟩
  ticks := addsTicks_of_keepsLines hkeeps

/-! ## (4) Operations without words -/

/-- The end of a line lays out no word. -/
theorem wordless_newLine : Wordless settings 0 newLine :=
  wordless_betweenLines blind_id (fun _ => Relation.ReflTransGen.refl)
    fun _ => ⟨rfl, rfl, rfl, rfl, rfl, rfl⟩

/-- Blocks that are opened or closed between two lines. -/
theorem wordless_block {k : BlockContext → BlockContext}
    (h : ∀ context, { k context with headingText := [] } =
      { k { context with headingText := [] } with headingText := [] }) :
    Wordless settings 0 fun flow => flow.newLine.updateContext k :=
  wordless_betweenLines (blind_updateContext h)
    (fun flow => (Change.block _ (newLine_current flow) _ _ _).chain)
    fun _ => ⟨rfl, rfl, rfl, rfl, rfl, rfl⟩

/-- The text of an open heading does not number items. -/
theorem nextMarker_headingText (context : BlockContext) :
    ({ context with headingText := [] } : BlockContext).nextMarker =
      (context.nextMarker.1, { context.nextMarker.2 with headingText := [] }) := by
  unfold BlockContext.nextMarker
  dsimp only
  split
  · rfl
  · split <;> rfl

/-- A block is opened without a look at the text of a heading. -/
theorem enter_headingText (role : TagRole) (context : BlockContext) :
    { role.enter context with headingText := [] } =
      { role.enter { context with headingText := [] } with headingText := [] } := by
  cases role with
  | item =>
    show _ = { ({ context with headingText := [] } : BlockContext).nextMarker.2 with
      headingText := [] }
    rw [nextMarker_headingText]
    rfl
  | _ => rfl

/-- A block is closed without a look at the text of a heading. -/
theorem leave_headingText (role : TagRole) (context : BlockContext) :
    { role.leave context with headingText := [] } =
      { role.leave { context with headingText := [] } with headingText := [] } := by
  cases role with
  | title =>
    cases hin : context.inTitle <;> simp [TagRole.leave, hin]
  | _ => rfl

/-- A paragraph ends with blank lines. -/
theorem wordless_paragraphBreak : Wordless settings 0 (paragraphBreak · settings) := by
  have hblanks : ∀ n, Blind (addBlanks · n) := fun n => blind_of_styles (fun _ => rfl) fun _ => rfl
  have hblind : Blind fun flow =>
      if flow.page.lines.isEmpty = true then flow
      else flow.addBlanks (settings.typography.paragraphSpacing - flow.trailingBlanks).toNat :=
    blind_id.ite (fun flow => hblanks _ flow) fun _ => Iff.rfl
  refine wordless_behindLine hblind (fun flow => ?_) (fun flow => ?_) (fun flow h => ?_) ?_
  · split
    · exact Relation.ReflTransGen.refl
    · rename_i hl
      exact addBlanks_changes _ (newLine_current flow) (by simpa using hl) _
  · split <;> exact ⟨rfl, rfl⟩
  · split <;> exact h
  · intro flow h
    obtain ⟨n, hn, -⟩ := exists_paragraphBreak_blanks settings flow
    show (flow.paragraphBreak settings).Unticked ∧ (flow.paragraphBreak settings).ticks = _
    rw [hn]
    exact (addsTicks_addBlanks n).comp_zero addsTicks_newLine flow h

/-- An item begins on a line of its own. -/
theorem wordless_startItem : Wordless settings 0 (startItem · settings) := by
  have hblind : Blind (atItem · settings) := by
    intro flow
    obtain ⟨spans, hitem⟩ := exists_atItem settings flow
    obtain ⟨spans', hitem'⟩ := exists_atItem settings flow.outline
    have hmarker : flow.outline.context.nextMarker = (flow.context.nextMarker.1,
        { flow.context.nextMarker.2 with headingText := [] }) :=
      nextMarker_headingText flow.context
    dsimp only
    rw [hitem, hitem', hmarker]
    exact outline_congr rfl (Stack.outline_outline _).symm
  refine wordless_behindLine hblind (fun flow => ?_) (fun flow => ?_) (fun flow _ => ?_)
    addsTicks_item
  · exact (Change.item _ (newLine_current flow)).chain
  · obtain ⟨spans, hitem⟩ := exists_atItem settings flow
    rw [hitem]
    exact ⟨rfl, rfl⟩
  · obtain ⟨spans, hitem⟩ := exists_atItem settings flow
    rw [hitem]

/-- A heading begins with a new line, of which the index is noted. -/
theorem wordless_openHeading (level : Nat) :
    Wordless settings 0 (openBlock · settings (.heading level)) := by
  have hline : Blind fun flow : Flow => { flow with headingLine := flow.lineIndex } :=
    blind_of_styles (fun _ => rfl) fun _ => rfl
  refine wordless_betweenLines (hline.comp (blind_updateContext (k := fun c =>
    { c with headingLevel := level, headingText := [] }) fun _ => rfl)) (fun flow => ?_)
    fun _ => ⟨rfl, rfl, rfl, rfl, rfl, rfl⟩
  exact (Change.block _ (newLine_current flow) _ _ _).chain.tail (.headingLine _)

/-- A heading is recorded beside the lines. -/
theorem wordless_closeHeading : Wordless settings 0 closeHeading := by
  have hrecord : Blind fun flow : Flow =>
      ({ flow with page := { flow.page with headings :=
          if flow.context.inHeading && !(Text.squeeze flow.context.headingText).isEmpty then
            flow.page.headings ++ [⟨flow.context.headingLevel,
              Text.squeeze flow.context.headingText, flow.headingLine⟩]
          else flow.page.headings } } : Flow).updateContext
        ({ · with headingLevel := 0, headingText := [] }) :=
    blind_of_styles (fun _ => rfl) fun _ => rfl
  exact wordless_betweenLines hrecord recordHeading_changes
    fun _ => ⟨rfl, rfl, rfl, rfl, rfl, rfl⟩

/-- A title begins behind an empty line. -/
theorem wordless_openTitle : Wordless settings 0 openTitle := by
  have hblind : Blind fun flow : Flow => flow.updateContext
      ({ · with inTitle := true, titleSerial := some flow.styles.opened }) :=
    blind_of_styles (fun _ => rfl) fun _ => rfl
  have htitle : Wordless settings 0 fun flow : Flow => flow.newLine.updateContext
      ({ · with inTitle := true, titleSerial := some flow.newLine.styles.opened }) :=
    wordless_betweenLines hblind
      (fun flow => (Change.block _ (newLine_current flow) _ _ _).chain)
      fun _ => ⟨rfl, rfl, rfl, rfl, rfl, rfl⟩
  -- The number of the title is the one of the element, which no line changes.
  have hopen : openTitle = fun flow : Flow => flow.newLine.newLine.updateContext
      ({ · with inTitle := true, titleSerial := some flow.newLine.newLine.styles.opened }) := by
    funext flow
    rw [(leadsOnlyTo_newLine flow.newLine).styles, (leadsOnlyTo_newLine flow).styles, openTitle]
  rw [hopen]
  exact htitle.comp_zero wordless_newLine

/-- A title ends with a line behind it. -/
theorem wordless_closeTitle : Wordless settings 0 closeTitle :=
  wordless_newLine.comp_zero
    (wordless_block (k := ({ · with inTitle := false, titleSerial := none })) fun _ => rfl)

/-- The label of an image stands on a line of its own. -/
theorem wordless_addImage (attributes : List Attribute) :
    Wordless settings (Token.ticks (.empty "img".toList attributes))
      (addImage · settings attributes) := by
  -- An image without a source shows nothing.
  cases hsource : Attribute.nonempty? attributes "src".toList with
  | none =>
    have hnothing : (addImage · settings attributes) = fun flow => flow := by
      funext flow
      simp only [addImage, hsource]
    have hzero : Token.ticks (.empty "img".toList attributes) = 0 := by
      rw [Token.ticks, hsource]
      rfl
    rw [hnothing, hzero]
    exact wordless_id
  | some source =>
    let alt := Text.squeeze ((Attribute.find? attributes "alt".toList).getD [])
    have hshown : (addImage · settings attributes) =
        fun flow => (flow.newLine.atImage settings source alt).newLine := by
      funext flow
      simp only [addImage, hsource, atImage, alt]
    -- Its line depends on the blocks only.
    have hblind : Blind (atImage · settings source alt) :=
      blind_of_styles (fun _ => rfl) fun _ => rfl
    have hline : ∀ flow : Flow, Text.ticks (flow.indent settings ++ imageLabel alt) =
        Token.ticks (.empty "img".toList attributes) := by
      intro flow
      have hindent : Text.ticks (flow.indent settings) = 0 := BlockContext.ticks_indent _ _
      rw [Text.ticks_append, hindent, Nat.zero_add, ticks_imageLabel, Text.ticks_squeeze,
        Token.ticks, hsource]
      rfl
    have hticks : AddsTicks (Token.ticks (.empty "img".toList attributes))
        fun flow => flow.newLine.atImage settings source alt := by
      intro flow h
      obtain ⟨⟨hmark, hcontinuation⟩, hadded⟩ := addsTicks_line hline Group.image flow h
      exact ⟨⟨hmark, hcontinuation⟩, hadded⟩
    rw [hshown]
    exact wordless_newLine.comp (wordless_behindLine hblind
      (fun flow => (Change.image _ (newLine_current flow) source alt).chain)
      (fun _ => ⟨rfl, rfl⟩) (fun _ _ => rfl) hticks)

/-- A horizontal rule stands on a line of its own, if there is room for one. -/
theorem wordless_addRule : Wordless settings 0 (addRule · settings) := by
  -- A rule is as wide as the room behind the indentation, and left out where there is none.
  let room : BlockContext → Int := fun context =>
    min maxRuleWidth (settings.maxWidth - Text.width (context.indent settings.typography))
  have hrule : Blind fun flow : Flow =>
      flow.commitBlock (flow.indent settings ++
        List.replicate (room flow.context).toNat '─') Group.rule :=
    blind_of_styles (fun _ => rfl) fun _ => rfl
  have hline : ∀ flow : Flow, Text.ticks (flow.indent settings ++
      List.replicate (room flow.context).toNat '─') = 0 := by
    intro flow
    have hindent : Text.ticks (flow.indent settings) = 0 := BlockContext.ticks_indent _ _
    have hbar : Text.ticks (List.replicate (room flow.context).toNat '─') = 0 :=
      List.count_eq_zero.2 fun h => absurd (List.eq_of_mem_replicate h) (by decide)
    rw [Text.ticks_append, hindent, hbar]
  have hshown : Wordless settings 0 fun flow : Flow => if 0 < room flow.newLine.context then
      flow.newLine.commitBlock (flow.newLine.indent settings ++
        List.replicate (room flow.newLine.context).toNat '─') Group.rule
      else flow.newLine := by
    have hblind := hrule.ite blind_id (p := fun flow => 0 < room flow.context) fun _ => Iff.rfl
    refine wordless_behindLine hblind (fun flow => ?_)
      (fun flow => ?_) (fun flow h => ?_) ((addsTicks_line hline Group.rule).ite addsTicks_newLine)
    · split
      · rename_i hroom
        exact (Change.rule _ (newLine_current flow) _ (by omega)).chain
      · exact Relation.ReflTransGen.refl
    · split <;> exact ⟨rfl, rfl⟩
    · split
      · rfl
      · exact h
  exact wordless_newLine.comp_zero hshown

/-- The mark behind a word does not depend on the open elements, and not on what comes next. -/
theorem codeEnd_with (settings : Settings) (flow : Flow) (k : Stack → Stack) (g : Bool → Bool) :
    ({ flow.codeEnd settings with
        styles := k (flow.codeEnd settings).styles
        glue := g (flow.codeEnd settings).glue } : Flow).outline =
      (codeEnd { flow with styles := k flow.styles, glue := g flow.glue } settings).outline := by
  -- Whether the word moves is decided by the line and the word alone.
  by_cases hfits : ((Text.width flow.atCodeEnd.current : Int) ≤ settings.maxWidth ||
      !flow.atCodeEnd.wordMovable) = true
  · have hend : flow.codeEnd settings = flow.atCodeEnd := if_pos hfits
    have hend' : codeEnd { flow with styles := k flow.styles, glue := g flow.glue } settings =
      atCodeEnd { flow with styles := k flow.styles, glue := g flow.glue } := if_pos hfits
    rw [hend, hend']
    rfl
  · have hend : flow.codeEnd settings = flow.atCodeEnd.moveWord := if_neg hfits
    have hend' : codeEnd { flow with styles := k flow.styles, glue := g flow.glue } settings =
      moveWord (atCodeEnd { flow with styles := k flow.styles, glue := g flow.glue }) :=
        if_neg hfits
    rw [hend, hend']
    rfl

/-- Anchors are recorded beside the lines. -/
theorem wordless_recordAnchor (attributes : List Attribute) :
    Wordless settings 0 (recordAnchor · attributes) := by
  refine wordless_of_outline (fun flow => ?_) (fun flow => (Change.anchor flow attributes).chain)
    fun flow => ?_
  all_goals
    obtain ⟨anchors, hanchors⟩ := exists_recordAnchor flow attributes
    rw [hanchors]
  · rfl
  · exact ⟨rfl, rfl, rfl, rfl, rfl, rfl⟩

/-- An element on the stack decides no line before the next word. -/
theorem wordless_pushElement (name : Text) (attributes : List Attribute) :
    Wordless settings 0 (pushElement · settings name attributes) where
  blind flow := outline_congr rfl (congrArg (fun stack : Stack => { stack with
    elements := ⟨[], flow.styles.opened + 1⟩ :: stack.elements, opened := stack.opened + 1 })
    (Stack.outline_outline flow.styles).symm)
  changes flow := (Change.push flow name attributes).chain
  pendingMark _ := rfl
  codeDepth _ := rfl
  codeEnd flow _ hw := by
    have hend := codeEnd_with settings flow (·.push name attributes settings.classStyles) id
    exact ⟨hw, hend.trans ((blind_codeEnd settings).congr rfl)⟩
  ticks := addsTicks_of_keepsLines fun _ => ⟨rfl, rfl, rfl, rfl, rfl, rfl⟩

/-- Whether an operation lays out no word and leaves the marks of inline code alone: it ends lines,
changes blocks between them, puts lines of its own on the page, or records what stands beside them.
-/
def Operation.isWordless : Operation → Bool
  | .newLine | .paragraphBreak | .enter _ | .leave _ | .item | .openHeading _ | .closeHeading
  | .openTitle _ | .closeTitle | .image _ | .rule | .anchor _ | .push _ _ => true
  | _ => false

/-- The backticks that an operation without words puts into the lines. -/
def Operation.ticks : Operation → Nat
  | .image attributes => Token.ticks (.empty "img".toList attributes)
  | _ => 0

/-- **An operation without words** is such a step. -/
theorem wordless_perform {operation : Operation} (h : operation.isWordless = true) :
    Wordless settings operation.ticks (perform · settings operation) := by
  cases operation with
  | newLine => exact wordless_newLine
  | paragraphBreak => exact wordless_paragraphBreak
  | enter role => exact wordless_block (enter_headingText role)
  | leave role => exact wordless_block (leave_headingText role)
  | item => exact wordless_startItem
  | openHeading level => exact wordless_openHeading level
  | closeHeading => exact wordless_closeHeading
  | openTitle attributes =>
    exact wordless_openTitle.ite
      (p := fun context => (!context.inTitle && opensTitle settings attributes) = true) wordless_id
      fun _ => Iff.rfl
  | closeTitle =>
    exact wordless_closeTitle.ite (p := (·.inTitle = true)) wordless_id fun _ => Iff.rfl
  | image attributes => exact wordless_addImage attributes
  | rule => exact wordless_addRule
  | anchor attributes => exact wordless_recordAnchor attributes
  | push name attributes => exact wordless_pushElement name attributes
  | _ => cases h

/-- **Operations without words** are such a step together. -/
theorem wordless_performAll {operations : List Operation}
    (h : ∀ operation ∈ operations, operation.isWordless = true) :
    Wordless settings (operations.map Operation.ticks).sum (performAll · settings operations) := by
  induction operations with
  | nil => exact wordless_id
  | cons operation operations ih =>
    obtain ⟨hfirst, hrest⟩ := List.forall_mem_cons.1 h
    rw [List.map_cons, List.sum_cons]
    exact (ih hrest).comp (wordless_perform hfirst)

/-! ## (5) Elements -/

/-- The element behind the tag that opens its block. -/
theorem wordless_enterElement (name : Text) (attributes : List Attribute) :
    Wordless settings 0 (enterElement · settings name attributes) := by
  have hwordless : ∀ operation ∈ [Operation.anchor attributes, .push name attributes,
      .openTitle attributes], operation.isWordless = true := by
    simp [Operation.isWordless]
  exact wordless_performAll hwordless

/-- The name of an element decides no line. -/
theorem enterElement_outline (flow : Flow) (name name' : Text) (attributes : List Attribute) :
    (flow.enterElement settings name attributes).outline =
      (flow.enterElement settings name' attributes).outline := by
  have hpushed : ((flow.recordAnchor attributes).pushElement settings name attributes).outline =
      ((flow.recordAnchor attributes).pushElement settings name' attributes).outline := rfl
  exact (@wordless_perform settings (.openTitle attributes) rfl).blind.congr hpushed

/-- The end of an element looks at its number only. -/
theorem blind_dropElement : Blind dropElement := by
  intro flow
  have hclose : Blind closeTitle := (@wordless_closeTitle {}).blind
  have hnumbers : flow.outline.styles.elements =
    flow.styles.elements.map OpenElement.outline := rfl
  cases helements : flow.styles.elements with
  | nil =>
    rw [helements] at hnumbers
    rw [dropElement_of_nil helements, dropElement_of_nil hnumbers, outline_outline]
  | cons e elements =>
    rw [helements] at hnumbers
    rw [dropElement_of_cons helements, dropElement_of_cons hnumbers]
    have hnext : ({ flow with styles := flow.styles.leave elements e.serial } : Flow).outline =
        ({ flow.outline with
          styles := flow.outline.styles.leave (elements.map OpenElement.outline) e.serial } :
            Flow).outline :=
      outline_congr rfl (Stack.outline_outline (flow.styles.leave elements e.serial)).symm
    have hnumber : flow.outline.context.titleSerial = some e.outline.serial ↔
        flow.context.titleSerial = some e.serial := Iff.rfl
    by_cases hserial : flow.context.titleSerial = some e.serial
    · rw [if_pos hserial, if_pos (hnumber.2 hserial)]
      exact hclose.congr hnext
    · rw [if_neg hserial, if_neg (mt hnumber.1 hserial)]
      exact hnext

/-- The end of an element ends a title at most. -/
theorem dropElement_cases (flow : Flow) : flow.dropElement = flow ∨ ∃ styles : Stack,
    flow.dropElement = closeTitle { flow with styles } ∨
      flow.dropElement = { flow with styles } := by
  cases helements : flow.styles.elements with
  | nil => exact .inl (dropElement_of_nil helements)
  | cons e elements =>
    rw [dropElement_of_cons helements]
    refine .inr ⟨flow.styles.leave elements e.serial, ?_⟩
    split
    · exact .inl rfl
    · exact .inr rfl

/-- The end of an element leaves the marks of inline code alone. -/
theorem dropElement_marks (flow : Flow) :
    flow.dropElement.pendingMark = flow.pendingMark ∧
      flow.dropElement.codeDepth = flow.codeDepth := by
  have hclose : Wordless {} 0 closeTitle := wordless_closeTitle
  obtain h | ⟨styles, h | h⟩ := dropElement_cases flow
  all_goals rw [h]
  · exact ⟨rfl, rfl⟩
  · exact ⟨hclose.pendingMark _, hclose.codeDepth _⟩
  · exact ⟨rfl, rfl⟩

/-- The end of an element is a chain of changes. -/
theorem dropElement_changes (flow : Flow) : Changes settings flow flow.dropElement := by
  have hpop : ∀ styles : Stack, Changes settings flow { flow with styles } := fun styles =>
    (Change.quiet flow styles _ _ _ _ _ _ _ _ _ _).chain
  obtain h | ⟨styles, h | h⟩ := dropElement_cases flow
  · exact h.symm ▸ Relation.ReflTransGen.refl
  · exact h.symm ▸ (hpop styles).trans (closeTitle_changes _)
  · exact h.symm ▸ hpop styles

/-- The end of an element adds no backtick. -/
theorem addsTicks_dropElement : AddsTicks 0 dropElement := by
  intro flow h
  have hclose : Wordless {} 0 closeTitle := wordless_closeTitle
  have hpop : ∀ styles : Stack, ({ flow with styles } : Flow).Unticked := fun _ =>
    ⟨h.pendingMark, h.continuation⟩
  obtain hdrop | ⟨styles, hdrop | hdrop⟩ := dropElement_cases flow
  all_goals rw [hdrop]
  · exact ⟨h, rfl⟩
  · exact hclose.ticks _ (hpop styles)
  · exact ⟨hpop styles, rfl⟩

/-- The mark behind a word could also be put there after the end of an element, if the word is still
on its line then. -/
theorem codeEnd_dropElement (hbegun : flow.Begun settings)
    (hw : flow.dropElement.hasWords = true) : flow.hasWords = true ∧
      (flow.codeEnd settings).dropElement.outline =
        (flow.dropElement.codeEnd settings).outline := by
  have hclose : Wordless settings 0 closeTitle := wordless_closeTitle
  have hstyles := codeEnd_styles settings flow
  cases helements : flow.styles.elements with
  | nil =>
    rw [dropElement_of_nil helements] at hw ⊢
    rw [dropElement_of_nil (by rw [hstyles, helements])]
    exact ⟨hw, rfl⟩
  | cons e elements =>
    -- The same element is dropped in front of the mark and behind it, and the same title ends.
    have hpop : ({ flow.codeEnd settings with
          styles := (flow.codeEnd settings).styles.leave elements e.serial } : Flow).outline =
        (codeEnd { flow with styles := flow.styles.leave elements e.serial } settings).outline :=
      codeEnd_with settings flow (·.leave elements e.serial) id
    have hbegun' : Begun settings { flow with styles := flow.styles.leave elements e.serial } :=
      hbegun.change (.quiet flow _ _ _ _ _ _ _ _ _ _ _)
    have hsame : (flow.codeEnd settings).context.titleSerial = flow.context.titleSerial := by
      rw [codeEnd_context]
    rw [dropElement_of_cons helements] at hw ⊢
    rw [dropElement_of_cons (by rw [hstyles, helements])]
    split at hw
    · rename_i hserial
      rw [if_pos hserial, if_pos (hsame.trans hserial)]
      obtain ⟨hline, hend⟩ := hclose.codeEnd _ hbegun' hw
      exact ⟨hline, (hclose.blind.congr hpop).trans hend⟩
    · rename_i hserial
      rw [if_neg hserial, if_neg fun h => hserial (hsame.symm.trans h)]
      exact ⟨hw, hpop⟩

/-- The end of an element is a step without words. -/
theorem wordless_dropElement : Wordless settings 0 dropElement where
  blind := blind_dropElement
  changes := dropElement_changes
  pendingMark flow := (dropElement_marks flow).1
  codeDepth flow := (dropElement_marks flow).2
  codeEnd _ := codeEnd_dropElement
  ticks := addsTicks_dropElement

/-! ## (6) Tokens -/

/-- The text of a heading decides no line. -/
theorem outline_collectHeading (flow : Flow) (s : Text) :
    (flow.collectHeading s).outline = flow.outline := by
  obtain ⟨headingText, hcollect⟩ := exists_collectHeading flow s
  rw [hcollect]
  rfl

/-- The text of a heading is collected beside the lines. -/
theorem wordless_collectHeading (s : Text) : Wordless settings 0 (collectHeading · s) := by
  refine wordless_of_outline (outline_collectHeading · s) (collectHeading_changes · s)
    fun flow => ?_
  obtain ⟨headingText, hcollect⟩ := exists_collectHeading flow s
  rw [hcollect]
  exact ⟨rfl, rfl, rfl, rfl, rfl, rfl⟩

/-- Text without words decides at most that the next word stands apart. -/
theorem wordless_addText (hs : Text.words Text.isFlowBlank s = []) :
    Wordless settings (Text.ticks s) (addText · settings s) := by
  by_cases hnil : s = []
  · subst hnil
    exact wordless_id
  · have hglue : (addText · settings s) = fun flow => { flow with glue := false } := by
      funext flow
      simp [addText, hnil, hs]
    have hticks := @addsTicks_addText settings s
    rw [hglue] at hticks ⊢
    exact ⟨blind_of_styles (fun _ => rfl) fun _ => rfl, fun flow => (Change.glue flow false).chain,
      fun _ => rfl, fun _ => rfl,
      fun flow _ hw => ⟨hw, codeEnd_with settings flow id fun _ => false⟩, hticks⟩

/-- Opening tags lay out no word, unless they begin inline code. -/
theorem TagRole.isWordless_opening {role : TagRole} (htext : role.takesText = true)
    (hcode : role ≠ .code) : ∀ operation ∈ role.opening, operation.isWordless = true := by
  cases role <;> simp_all [TagRole.takesText, TagRole.opening, Operation.isWordless]

/-- Closing tags lay out no word, unless they end inline code. -/
theorem TagRole.isWordless_closing {role : TagRole} (htext : role.takesText = true)
    (hcode : role ≠ .code) : ∀ operation ∈ role.closing, operation.isWordless = true := by
  cases role <;> simp_all [TagRole.takesText, TagRole.closing, Operation.isWordless]

/-- Blocks are opened and closed without backticks. -/
theorem sum_ticks_block (role : TagRole) : (role.opening.map Operation.ticks).sum = 0 ∧
    (role.closing.map Operation.ticks).sum = 0 := by
  cases role <;> exact ⟨rfl, rfl⟩

/-- An element that is closed in its own tag lays out no word, and has the backticks of an image. -/
theorem wordless_lineOperations (name : Text) (attributes : List Attribute) :
    Wordless settings (Token.ticks (.empty name attributes))
      (performAll · settings (lineOperations name attributes)) := by
  have hwordless : ∀ operation ∈ lineOperations name attributes, operation.isWordless = true := by
    unfold lineOperations emptyOperations
    split_ifs <;> simp_all [Operation.isWordless]
  have hticks : ((lineOperations name attributes).map Operation.ticks).sum =
      Token.ticks (.empty name attributes) := by
    unfold lineOperations emptyOperations
    by_cases himg : name = "img".toList
    · subst himg
      rfl
    · split_ifs <;> simp_all [Operation.ticks, Token.ticks]
  exact hticks ▸ wordless_performAll hwordless

/-- **A token without words** is such a step, unless it is a tag of inline code. -/
theorem wordless_act (htext : token.takesText = true) (hcode : token.isCode = false)
    (hwords : token.hasWords = false) : Wordless settings token.ticks (act · settings token) := by
  -- A token is collected for a heading, opens or closes a block, or stands on a line of its own.
  cases token with
  | text s =>
    have hs : Text.words Text.isFlowBlank s = [] := by simpa [Token.hasWords] using hwords
    have htext := (@wordless_addText settings s hs).comp (wordless_collectHeading s)
    rwa [Nat.zero_add] at htext
  | opening name attributes =>
    have hblock := @wordless_performAll settings _
      (TagRole.isWordless_opening htext (by simpa [Token.isCode] using hcode))
    rw [(sum_ticks_block _).1] at hblock
    have hopen : (act · settings (.opening name attributes)) = fun flow : Flow =>
        (flow.performAll settings (TagRole.ofName name).opening).enterElement settings name
          attributes := by
      funext flow
      rw [act, openBlock_eq_performAll]
    rw [hopen]
    exact (wordless_enterElement name attributes).comp_zero hblock
  | closing name =>
    have hblock := @wordless_performAll settings _
      (TagRole.isWordless_closing htext (by simpa [Token.isCode] using hcode))
    rw [(sum_ticks_block _).2] at hblock
    rw [funext fun flow => act_closing flow name]
    exact wordless_dropElement.comp_zero hblock
  | empty name attributes =>
    rw [funext fun flow => act_empty flow name attributes]
    simp only [performAll_append]
    exact (wordless_recordAnchor attributes).comp (wordless_lineOperations name attributes)

/-- Tokens without words are such a step together. -/
theorem wordless_actAll (htext : ∀ t ∈ tokens, t.takesText = true)
    (hcode : ∀ t ∈ tokens, t.isCode = false) (hwords : ∀ t ∈ tokens, t.hasWords = false) :
    Wordless settings (tokens.map Token.ticks).sum (actAll · settings tokens) := by
  induction tokens with
  | nil => exact wordless_id
  | cons token tokens ih =>
    obtain ⟨htext, htexts⟩ := List.forall_mem_cons.1 htext
    obtain ⟨hcode, hcodes⟩ := List.forall_mem_cons.1 hcode
    obtain ⟨hword, hwords⟩ := List.forall_mem_cons.1 hwords
    rw [List.map_cons, List.sum_cons]
    exact (ih htexts hcodes hwords).comp (wordless_act htext hcode hword)

/-- **A token** adds its backticks to the lines, unless it is a tag of inline code. -/
theorem addsTicks_act (htext : token.takesText = true) (hcode : token.isCode = false) :
    AddsTicks token.ticks (act · settings token) := by
  cases token with
  | text s =>
    have hadded := (@addsTicks_addText settings s).comp
      (@wordless_collectHeading settings s).ticks
    rwa [Nat.zero_add] at hadded
  | _ => exact (wordless_act htext hcode rfl).ticks

/-- **Tokens** add their backticks to the lines, unless they are tags of inline code. -/
theorem addsTicks_actAll (htext : ∀ t ∈ tokens, t.takesText = true)
    (hcode : ∀ t ∈ tokens, t.isCode = false) :
    AddsTicks (tokens.map Token.ticks).sum (actAll · settings tokens) := by
  induction tokens with
  | nil => exact addsTicks_id
  | cons token tokens ih =>
    obtain ⟨htoken, htext⟩ := List.forall_mem_cons.1 htext
    obtain ⟨htag, hcode⟩ := List.forall_mem_cons.1 hcode
    rw [List.map_cons, List.sum_cons]
    exact (ih htext hcode).comp (addsTicks_act htoken htag)

/-! ## (7) Changes -/

/-- What a token does where text goes to the lines consists of elementary changes. -/
theorem act_changes (h : flow.TakesText) (token : Token) :
    Changes settings flow (flow.act settings token) := by
  cases token with
  | text s =>
    refine (collectHeading_changes flow s).trans (addText_changes _ ?_ s)
    rw [collectHeading_inPre]
    exact h.inPre
  | opening name attributes =>
    rw [act_opening]
    exact performAll_changes flow _
  | closing name =>
    rw [act_closing]
    exact (performAll_changes flow _).trans (dropElement_changes _)
  | empty name attributes =>
    rw [act_empty]
    exact performAll_changes flow _

/-- Tokens leave a state in which text goes to the lines in one of the cases of its line. -/
theorem TakesText.actAll (h : flow.TakesText) (hbegun : flow.Begun settings)
    (htext : ∀ t ∈ tokens, t.takesText = true) :
    (flow.actAll settings tokens).TakesText ∧ (flow.actAll settings tokens).Begun settings := by
  induction tokens generalizing flow with
  | nil => exact ⟨h, hbegun⟩
  | cons token tokens ih =>
    obtain ⟨htoken, htext⟩ := List.forall_mem_cons.1 htext
    exact ih (h.act htoken) (hbegun.changes (act_changes h token)) htext

end Flow

end ChapterLayout
