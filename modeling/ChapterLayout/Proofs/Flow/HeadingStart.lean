import ChapterLayout.Proofs.Flow.HeadingLines
import ChapterLayout.Proofs.Flow.Target

/-! # Where a heading starts

The line of a heading is noted when its tag is read. If a class of the heading, or of an element
before its first word, opens a title, then a blank line is still added behind text, and the heading
starts one line further down:

* **`Token.openNames`** — the elements that are open behind tokens, if these are well nested so far;
* **`Flow.Leads`** — whether no line of the heading is begun, and what was added before it;
* **`Leads.feedAll`** — tokens without words only add that blank line;
* **`Flow.InHeading`** — what is known of the heading that is open;
* **`run_heading`** — the heading on the page, its line and the line of its first word. -/

namespace ChapterLayout

/-- Only headings of a positive level have tags. -/
theorem TagRole.pos_of_ofName_heading {name : Text} {level : Nat}
    (h : TagRole.ofName name = .heading level) : 0 < level := by
  have hall : ∀ entry ∈ TagRole.byName, entry.2 ≠ .heading 0 := by decide
  have hmem := TagRole.mem_byName h TagRole.noConfusion
  exact Nat.pos_of_ne_zero fun hzero => hall _ hmem (congrArg TagRole.heading hzero)

namespace Token

variable {tokens more : List Token} {names : List Text}

/-! ## (1) Open elements -/

/-- Text, and tags of elements within a line. -/
def IsPhrase : Token → Prop
  | .text _ => True
  | .opening name _ => IsInlineName name
  | .closing name => IsInlineName name
  | .empty name _ => IsInlineName name

instance (token : Token) : Decidable token.IsPhrase :=
  match token with
  | .text _ => inferInstanceAs (Decidable True)
  | .opening name _ => inferInstanceAs (Decidable (IsInlineName name))
  | .closing name => inferInstanceAs (Decidable (IsInlineName name))
  | .empty name _ => inferInstanceAs (Decidable (IsInlineName name))

/-- Whether a class of an opening tag opens a title. -/
def opensTitle (settings : Settings) : Token → Bool
  | .opening _ attributes => Flow.opensTitle settings attributes
  | _ => false

/-- The names of the elements that are open behind tokens, the innermost first, unless a closing tag
closes another element than the innermost. -/
def openNames : List Text → List Token → Option (List Text)
  | names, [] => some names
  | names, .opening name _ :: tokens => openNames (name :: names) tokens
  | names, .closing name :: tokens =>
    match names with
    | [] => none
    | other :: names => if other = name then openNames names tokens else none
  | names, .text _ :: tokens => openNames names tokens
  | names, .empty _ _ :: tokens => openNames names tokens

/-- The names that are open behind tokens and more of them are found one after the other. -/
theorem openNames_append (names : List Text) (tokens more : List Token) :
    openNames names (tokens ++ more) =
      (openNames names tokens).bind (openNames · more) := by
  induction tokens generalizing names with
  | nil => rfl
  | cons token tokens ih =>
    cases token with
    | opening name attributes => exact ih (name :: names)
    | text s => exact ih names
    | empty name attributes => exact ih names
    | closing name =>
      cases names with
      | nil => rfl
      | cons other names =>
        show (if other = name then openNames names (tokens ++ more) else none) =
          (if other = name then openNames names tokens else none).bind _
        split
        · exact ih names
        · rfl

/-- Behind well-nested tokens the same elements are open as before. -/
theorem Nested.openNames (h : Nested tokens) (names : List Text) :
    openNames names tokens = some names := by
  induction h generalizing names with
  | nil => rfl
  | text s _ ih => exact ih names
  | empty name attributes _ ih => exact ih names
  | element name attributes _ _ ihInner ihRest =>
    rename_i content tokens _ _
    show Token.openNames (name :: names) (content ++ .closing name :: tokens) = some names
    rw [openNames_append, ihInner (name :: names)]
    exact (if_pos rfl).trans (ihRest names)

/-- The first of some well-nested tokens close no element that they did not open. -/
theorem Nested.exists_openNames (h : Nested (tokens ++ more)) :
    ∃ names, Token.openNames [] tokens = some names := by
  have hall := h.openNames []
  rw [openNames_append] at hall
  obtain ⟨names, hnames, -⟩ := Option.bind_eq_some_iff.1 hall
  exact ⟨names, hnames⟩

end Token

namespace Flow

variable {settings : Settings} {start flow a b : Flow} {name s word : Text} {titled : Bool}
  {attributes : List Attribute} {names : List Text} {token : Token} {level k : Nat}
  {headings : List Heading}

/-! ## (2) Tags within a line -/

/-- What the tag of an element within a line leaves as it is: all but the title among the open
blocks, and the headings. -/
structure PhraseTag (a b : Flow) : Prop where
  context : ∃ inTitle titleSerial, b.context = { a.context with inTitle, titleSerial }
  headings : SameHeadings a b

/-- A tag within a line leaves a state that takes text. -/
theorem PhraseTag.takesText (h : PhraseTag a b) (ha : a.TakesText) : b.TakesText := by
  obtain ⟨inTitle, titleSerial, hcontext⟩ := h.context
  constructor
  all_goals rw [hcontext]
  · exact ha.rawDepth
  · exact ha.inHead
  · exact ha.inPre
  · exact ha.inTable

/-- A tag within a line leaves the indentation as it is. -/
theorem PhraseTag.indent (h : PhraseTag a b) : b.indent settings = a.indent settings := by
  obtain ⟨inTitle, titleSerial, hcontext⟩ := h.context
  rw [Flow.indent, hcontext]
  rfl

/-- Tags within a line follow one another. -/
theorem PhraseTag.trans {c : Flow} (hab : PhraseTag a b) (hbc : PhraseTag b c) :
    PhraseTag a c := by
  obtain ⟨_, _, hb⟩ := hab.context
  obtain ⟨inTitle, titleSerial, hc⟩ := hbc.context
  refine ⟨⟨inTitle, titleSerial, ?_⟩, hab.headings.trans hbc.headings⟩
  rw [hc, hb]

/-- Recording an anchor does no more than a tag within a line. -/
theorem phraseTag_recordAnchor (flow : Flow) (attributes : List Attribute) :
    PhraseTag flow (flow.recordAnchor attributes) := by
  obtain ⟨anchors, hanchors⟩ := exists_recordAnchor flow attributes
  rw [hanchors]
  exact ⟨⟨_, _, rfl⟩, ⟨rfl, rfl, rfl⟩⟩

/-- Opening a title by its class does no more than a tag within a line. -/
theorem phraseTag_openTitle (flow : Flow) : PhraseTag flow flow.openTitle :=
  have hlead := leadsOnlyTo_openTitle flow
  ⟨⟨_, _, hlead.context⟩, hlead.same (sameIn_title _ _ _ (show Part.headings ≠ .blocks by decide))⟩

/-- An element is put on the stack, and a title may be opened behind it. -/
theorem phraseTag_title (flow : Flow) (opens : Bool) (name : Text)
    (attributes : List Attribute) :
    PhraseTag flow (if opens then (flow.pushElement settings name attributes).openTitle
      else flow.pushElement settings name attributes) := by
  have hpushed : PhraseTag flow (flow.pushElement settings name attributes) :=
    ⟨⟨_, _, rfl⟩, ⟨rfl, rfl, rfl⟩⟩
  split
  · exact hpushed.trans (phraseTag_openTitle _)
  · exact hpushed

/-- Closing an element does no more than a tag within a line. -/
theorem phraseTag_popElement (flow : Flow) (name : Text) :
    PhraseTag flow (flow.popElement name) := by
  refine ⟨?_, same_popElement flow name (show Part.headings ≠ .blocks by decide)⟩
  unfold popElement
  cases flow.styles.pop? name with
  | none => exact ⟨_, _, rfl⟩
  | some popped =>
    dsimp only
    split
    · exact ⟨_, _, (leadsOnlyTo_closeTitle _).context⟩
    · exact ⟨_, _, rfl⟩

/-- The closing tag of an element within a line closes that element and does nothing else. -/
theorem closeTag_phrase (hhead : flow.context.inHead = false)
    (hname : TagRole.ofName name = .inline) :
    flow.closeTag settings name = flow.popElement name := by
  have htracks : flow.tracks name = true := tracks_of_shown hhead (by rw [hname]; rfl)
  rw [closeTag_stacked htracks, hname]
  rfl

/-- **A tag within a line** opens and closes a title at most. -/
theorem phraseTag_feed (hhead : flow.context.inHead = false) (htoken : token.IsPhrase)
    (htag : ∀ s, token ≠ .text s) : PhraseTag flow (flow.feed settings token) := by
  cases token with
  | text s => exact absurd rfl (htag s)
  | opening name attributes =>
    show PhraseTag flow (flow.openTag settings name attributes)
    rw [openTag_phrase hhead htoken.1]
    exact (phraseTag_recordAnchor flow attributes).trans (phraseTag_title _ _ _ _)
  | closing name =>
    show PhraseTag flow (flow.closeTag settings name)
    rw [closeTag_phrase hhead htoken.1]
    exact phraseTag_popElement flow name
  | empty name attributes =>
    show PhraseTag flow (flow.emptyTag settings name attributes)
    rw [emptyTag_phrase hhead htoken]
    exact phraseTag_recordAnchor flow attributes

/-! ## (3) Before the first word -/

/-- Whether the title that was open at the start is the one that is open now, and the elements that
were opened since then have the given names. -/
structure Untitled (start : Flow) (names : List Text) (flow : Flow) : Prop where
  inTitle : flow.context.inTitle = start.context.inTitle
  titleSerial : flow.context.titleSerial = start.context.titleSerial
  opened : start.styles.opened ≤ flow.styles.opened
  elements : ∃ inner, flow.styles.elements = inner ++ start.styles.elements ∧
    inner.map OpenElement.name = names ∧ ∀ e ∈ inner, start.styles.opened < e.serial

/-- Whether no line is begun since the start. If a title was opened since then, a blank line was
added behind text. -/
structure Leads (settings : Settings) (start : Flow) (titled : Bool) (names : List Text)
    (flow : Flow) : Prop where
  takesText : flow.TakesText
  current : flow.current = []
  hasWords : flow.hasWords = false
  pendingMark : flow.pendingMark = start.pendingMark
  indent : flow.indent settings = start.indent settings
  lines : flow.page.lines = start.page.lines ++ if start.endsInText && titled then [[]] else []
  untitled : titled = false → Untitled start names flow

/-- Behind the blank line no text is the end of the page. -/
theorem Leads.endsInText (h : Leads settings start titled names flow) :
    flow.endsInText = (start.endsInText && !titled) := by
  have hlines := h.lines
  cases hend : start.endsInText with
  | false =>
    rw [hend, Bool.false_and, if_neg Bool.false_ne_true, List.append_nil] at hlines
    rw [Bool.false_and, ← hend, Flow.endsInText, hlines, Flow.endsInText]
  | true =>
    rw [hend, Bool.true_and] at hlines
    rw [Flow.endsInText, hlines]
    cases titled with
    | true => simp
    | false =>
      rw [if_neg Bool.false_ne_true, List.append_nil]
      exact hend

/-- **A title** adds a blank line behind text, unless one was opened before. -/
theorem Leads.openTitle (h : Leads settings start titled names flow) :
    Leads settings start true names flow.openTitle := by
  have hlines : flow.openTitle.page.lines =
      start.page.lines ++ if start.endsInText && true then [[]] else [] := by
    rw [openTitle_between h.current]
    dsimp only
    rw [h.lines, h.endsInText, List.append_assoc]
    cases start.endsInText <;> cases titled <;> rfl
  have htag := phraseTag_openTitle flow
  refine ⟨htag.takesText h.takesText, ?_, ?_, ?_, htag.indent.trans h.indent, hlines,
    fun htitled => nomatch htitled⟩
  all_goals rw [openTitle_between h.current]
  · exact h.current
  · exact h.hasWords
  · exact h.pendingMark

/-- The class of an element opens a title, unless a title is open. -/
theorem Leads.title (h : Leads settings start titled names flow) (opens : Bool) :
    Leads settings start (titled || (!start.context.inTitle && opens)) names
      (if !flow.context.inTitle && opens then flow.openTitle else flow) := by
  cases titled with
  | true =>
    rw [Bool.true_or]
    split
    · exact h.openTitle
    · exact h
  | false =>
    rw [Bool.false_or, (h.untitled rfl).inTitle]
    split
    · rename_i hopens
      rw [hopens]
      exact h.openTitle
    · rename_i hopens
      rw [Bool.not_eq_true] at hopens
      rw [hopens]
      exact h

/-- **An opening tag** may open a title. -/
theorem Leads.opening (h : Leads settings start titled names flow)
    (hname : TagRole.ofName name = .inline) (attributes : List Attribute) :
    Leads settings start
      (titled || (!start.context.inTitle && opensTitle settings attributes)) (name :: names)
      (flow.openTag settings name attributes) := by
  obtain ⟨anchors, hanchors⟩ := exists_recordAnchor flow attributes
  rw [openTag_phrase h.takesText.inHead hname, hanchors]
  have hpushed : Leads settings start titled (name :: names)
      (pushElement { flow with page := { flow.page with anchors } } settings name attributes) := by
    obtain ⟨⟨hraw, hhead, hpre, htable⟩, hcurrent, hw, hmark, hindent, hlines, huntitled⟩ := h
    refine ⟨⟨hraw, hhead, hpre, htable⟩, hcurrent, hw, hmark, hindent, hlines, fun htitled => ?_⟩
    obtain ⟨hin, hserial, hopened, inner, helements, hnames, hnumbers⟩ := huntitled htitled
    refine ⟨hin, hserial, Nat.le_succ_of_le hopened, _ :: inner, congrArg (List.cons _) helements,
      congrArg (List.cons name) hnames, fun e he => ?_⟩
    rcases List.mem_cons.1 he with rfl | he
    · exact Nat.lt_succ_of_le hopened
    · exact hnumbers e he
  exact hpushed.title (opensTitle settings attributes)

/-- The first element of the stack is taken from it. -/
theorem popElement_first {e : OpenElement} {elements : List OpenElement}
    (helements : flow.styles.elements = e :: elements) (hname : e.name = name)
    (hserial : flow.context.titleSerial ≠ some e.serial) :
    flow.popElement name = { flow with styles := flow.styles.leave elements e.serial } := by
  subst hname
  have hfind : (e :: elements).find? (·.name == e.name) = some e :=
    List.find?_cons_of_pos (beq_self_eq_true e.name)
  have herase : (e :: elements).eraseP (·.name == e.name) = elements :=
    List.eraseP_cons_of_pos (beq_self_eq_true e.name)
  have hpop : flow.styles.pop? e.name = some (e.serial, flow.styles.leave elements e.serial) := by
    rw [Stack.pop?, helements, hfind, herase]
    rfl
  simp only [popElement, hpop]
  exact if_neg hserial

/-- **A closing tag** closes the innermost element, and no title that was open at the start. -/
theorem Leads.closing (h : Leads settings start titled (name :: names) flow)
    (howner : ∀ serial, start.context.titleSerial = some serial → serial ≤ start.styles.opened)
    (hname : TagRole.ofName name = .inline) :
    Leads settings start titled names (flow.closeTag settings name) := by
  rw [closeTag_phrase h.takesText.inHead hname]
  cases htitled : titled with
  | false =>
    rw [htitled] at h
    obtain ⟨⟨hraw, hhead, hpre, htable⟩, hcurrent, hw, hmark, hindent, hlines, huntitled⟩ := h
    obtain ⟨hin, hserial, hopened, inner, helements, hnames, hnumbers⟩ := huntitled rfl
    obtain ⟨e, inner, rfl, hfirst, hrest⟩ := List.map_eq_cons_iff.1 hnames
    obtain ⟨hnumber, hnumbers⟩ := List.forall_mem_cons.1 hnumbers
    -- The element was opened since the start, so the title was not opened by it.
    have hother : flow.context.titleSerial ≠ some e.serial := by
      intro howned
      exact absurd (howner e.serial (hserial ▸ howned)) (Nat.not_le_of_lt hnumber)
    rw [popElement_first helements hfirst hother]
    exact ⟨⟨hraw, hhead, hpre, htable⟩, hcurrent, hw, hmark, hindent, hlines,
      fun _ => ⟨hin, hserial, hopened, inner, rfl, hrest, hnumbers⟩⟩
  | true =>
    rw [htitled] at h
    have hend := h.endsInText
    rw [Bool.not_true, Bool.and_false] at hend
    obtain ⟨hpage, -, hcurrent, hw, hmark⟩ := popElement_between name h.current hend
    have htag := phraseTag_popElement flow name
    refine ⟨htag.takesText h.takesText, hcurrent, hw.trans h.hasWords, hmark.trans h.pendingMark,
      htag.indent.trans h.indent, ?_, fun hopen => nomatch hopen⟩
    rw [hpage]
    exact h.lines

/-- **Text without words** is not laid out. -/
theorem Leads.text (h : Leads settings start titled names flow)
    (hwords : Text.words Text.isFlowBlank s = []) :
    Leads settings start titled names (flow.feedText settings s) := by
  obtain ⟨⟨hraw, hhead, hpre, htable⟩, hcurrent, hw, hmark, hindent, hlines, huntitled⟩ := h
  obtain ⟨headingText, hcollect⟩ := exists_collectHeading flow s
  have hfeed : ∃ glue, flow.feedText settings s =
      { flow with context := { flow.context with headingText }, glue } := by
    rw [TakesText.feedText ⟨hraw, hhead, hpre, htable⟩, hcollect, addText, hwords]
    split
    · exact ⟨flow.glue, rfl⟩
    · exact ⟨false, rfl⟩
  obtain ⟨glue, hfeed⟩ := hfeed
  rw [hfeed]
  refine ⟨⟨hraw, hhead, hpre, htable⟩, hcurrent, hw, hmark, hindent, hlines, fun htitled => ?_⟩
  obtain ⟨hin, hserial, hopened, helements⟩ := huntitled htitled
  exact ⟨hin, hserial, hopened, helements⟩

/-- **An element that is closed in its own tag** sets its anchor. -/
theorem Leads.empty (h : Leads settings start titled names flow)
    (hname : Token.IsInlineName name) (attributes : List Attribute) :
    Leads settings start titled names (flow.emptyTag settings name attributes) := by
  obtain ⟨anchors, hanchors⟩ := exists_recordAnchor flow attributes
  rw [emptyTag_phrase h.takesText.inHead hname, hanchors]
  obtain ⟨⟨hraw, hhead, hpre, htable⟩, hcurrent, hw, hmark, hindent, hlines, huntitled⟩ := h
  refine ⟨⟨hraw, hhead, hpre, htable⟩, hcurrent, hw, hmark, hindent, hlines, fun htitled => ?_⟩
  obtain ⟨hin, hserial, hopened, helements⟩ := huntitled htitled
  exact ⟨hin, hserial, hopened, helements⟩

/-- **A token without words** lays out nothing, but a title that it opens adds a blank line behind
text. -/
theorem Leads.feed {names' : List Text} (h : Leads settings start titled names flow)
    (howner : ∀ serial, start.context.titleSerial = some serial → serial ≤ start.styles.opened)
    (htoken : token.IsPhrase) (hwords : Text.words Text.isFlowBlank token.content = [])
    (hnames : Token.openNames names [token] = some names') :
    Leads settings start (titled || (!start.context.inTitle && token.opensTitle settings)) names'
      (flow.feed settings token) := by
  -- Tokens that open no title leave it to the state whether one is open.
  have hplain : token.opensTitle settings = false →
      Leads settings start titled names' (flow.feed settings token) →
      Leads settings start (titled || (!start.context.inTitle && token.opensTitle settings)) names'
        (flow.feed settings token) := by
    intro hopens hleads
    rw [hopens, Bool.and_false, Bool.or_false]
    exact hleads
  cases token with
  | text s =>
    obtain rfl : names = names' := Option.some.inj hnames
    exact hplain rfl (h.text hwords)
  | opening name attributes =>
    obtain rfl : name :: names = names' := Option.some.inj hnames
    exact h.opening htoken.1 attributes
  -- A closing tag closes the innermost element, for the names would not be known otherwise.
  | closing name =>
    cases names with
    | nil => cases hnames
    | cons other names =>
      have hclosed : (if other = name then some names else none) = some names' := hnames
      split at hclosed
      · rename_i hsame
        subst hsame
        obtain rfl : names = names' := Option.some.inj hclosed
        exact hplain rfl (h.closing howner htoken.1)
      · cases hclosed
  | empty name attributes =>
    obtain rfl : names = names' := Option.some.inj hnames
    exact hplain rfl (h.empty htoken attributes)

/-- **Before the first word** of a heading the tokens only add that blank line. -/
theorem Leads.feedAll {tokens : List Token} {names' : List Text}
    (h : Leads settings start titled names flow)
    (howner : ∀ serial, start.context.titleSerial = some serial → serial ≤ start.styles.opened)
    (htokens : ∀ token ∈ tokens, token.IsPhrase)
    (hwords : ∀ token ∈ tokens, Text.words Text.isFlowBlank token.content = [])
    (hnames : Token.openNames names tokens = some names') :
    Leads settings start
      (titled || (!start.context.inTitle && tokens.any (Token.opensTitle settings))) names'
      (flow.feedAll settings tokens) := by
  -- The tokens are taken one by one: each leads to a state that the next ones lead on from.
  induction tokens generalizing flow titled names with
  | nil =>
    obtain rfl : names = names' := Option.some.inj hnames
    rw [List.any_nil, Bool.and_false, Bool.or_false]
    exact h
  | cons token tokens ih =>
    obtain ⟨htoken, htokens⟩ := List.forall_mem_cons.1 htokens
    obtain ⟨hword, hwords⟩ := List.forall_mem_cons.1 hwords
    obtain ⟨inner, hinner, hnames⟩ := Option.bind_eq_some_iff.1
      ((Token.openNames_append names [token] tokens).symm.trans hnames)
    rw [List.any_cons, Bool.and_or_distrib_left, ← Bool.or_assoc]
    exact ih (h.feed howner htoken hword hinner) htokens hwords hnames

/-! ## (4) The opening tag -/

/-- The state in which the tag of a heading has opened its block and its element. -/
def headingOpened (flow : Flow) (settings : Settings) (level : Nat) (name : Text)
    (attributes : List Attribute) : Flow :=
  ((flow.openBlock settings (.heading level)).recordAnchor attributes).pushElement settings name
    attributes

/-- The opening tag of a heading opens it, and a title too if its class asks for one. -/
theorem openTag_heading (hhead : flow.context.inHead = false)
    (hname : TagRole.ofName name = .heading level) :
    flow.openTag settings name attributes =
      let opened := flow.headingOpened settings level name attributes
      if !opened.context.inTitle && opensTitle settings attributes then opened.openTitle
      else opened := by
  have htracks : flow.tracks name = true := tracks_of_shown hhead (by rw [hname]; rfl)
  rw [openTag_stacked htracks, hname]
  rfl

/-- The tag of a heading ends the line, and notes the index of the next one. -/
theorem headingOpened_eq (flow : Flow) (settings : Settings) (level : Nat) (name : Text)
    (attributes : List Attribute) :
    ∃ anchors notices, flow.headingOpened settings level name attributes =
      { flow.newLine with
        page := { flow.newLine.page with anchors }
        context := { flow.context with headingLevel := level, headingText := [] }
        styles := flow.styles.push name attributes settings.classStyles
        headingLine := flow.newLine.lineIndex
        notices } := by
  obtain ⟨anchors, hanchors⟩ :=
    exists_recordAnchor (flow.openBlock settings (.heading level)) attributes
  have hline := leadsOnlyTo_newLine flow
  rw [← hline.styles, ← hline.context, headingOpened, hanchors]
  exact ⟨anchors, _, rfl⟩

/-- Ending a line keeps the mark that waits for a word. -/
theorem newLine_pendingMark (flow : Flow) : flow.newLine.pendingMark = flow.pendingMark := by
  unfold newLine
  dsimp only
  split_ifs <;> rfl

/-- **The tag of a heading** leaves no line begun, and the page ends in text if a line was begun
before it. -/
theorem leads_headingOpened (h : flow.TakesText) (hbegun : flow.Begun settings)
    (howned : flow.TitleOwned) (level : Nat) (name : Text) (attributes : List Attribute) :
    let opened := flow.headingOpened settings level name attributes
    Leads settings opened false [] opened ∧ opened.pendingMark = flow.pendingMark ∧
      opened.indent settings = flow.indent settings ∧ opened.lineIndex = flow.newLine.lineIndex ∧
      opened.endsInText = decide (flow.current ≠ []) ∧
      opened.context.inTitle = flow.context.inTitle ∧
      ∀ serial, opened.context.titleSerial = some serial → serial ≤ opened.styles.opened := by
  obtain ⟨anchors, notices, hopened⟩ := headingOpened_eq flow settings level name attributes
  dsimp only
  rw [hopened]
  refine ⟨⟨⟨h.rawDepth, h.inHead, h.inPre, h.inTable⟩, newLine_current flow,
    newLine_hasWords hbegun, rfl, rfl, ?_,
    fun _ => ⟨rfl, rfl, Nat.le_refl _, [], rfl, rfl, fun _ he => nomatch he⟩⟩,
    newLine_pendingMark flow, rfl, rfl, newLine_endsInText flow, rfl, fun serial hserial => ?_⟩
  · rw [Bool.and_false, if_neg Bool.false_ne_true, List.append_nil]
  · obtain ⟨-, e, he, rfl⟩ := howned.owner serial hserial
    exact Nat.le_succ_of_le (howned.serial_le e he)

/-- How many blank lines the tokens before the first word of a heading add: one if the line before
the heading was begun and a class of one of the tokens opens a title, and no title is open. -/
def headingGap (flow : Flow) (settings : Settings) (tokens : List Token) : Nat :=
  if flow.current ≠ [] ∧ flow.context.inTitle = false ∧
    tokens.any (Token.opensTitle settings) = true then 1 else 0

/-- **Up to the first word** of a heading its tags only add a blank line, if a class of one of them
opens a title behind text. -/
theorem leads_heading {lead more : List Token} (h : flow.TakesText) (hbegun : flow.Begun settings)
    (howned : flow.TitleOwned) (hname : TagRole.ofName name = .heading level)
    (hnested : Token.Nested (lead ++ more)) (hlead : ∀ token ∈ lead, token.IsPhrase)
    (hwords : ∀ token ∈ lead, Text.words Text.isFlowBlank token.content = []) :
    let led := (flow.openTag settings name attributes).feedAll settings lead
    led.TakesText ∧ led.hasWords = false ∧ led.pendingMark = flow.pendingMark ∧
      led.beforeWord settings = flow.indent settings ∧
      led.lineIndex = flow.newLine.lineIndex +
        flow.headingGap settings (.opening name attributes :: lead) := by
  obtain ⟨names, hnames⟩ := hnested.exists_openNames
  obtain ⟨hleads, hmark, hindent, hindex, hend, hin, howner⟩ :=
    leads_headingOpened h hbegun howned level name attributes
  rw [openTag_heading h.inHead hname]
  generalize flow.headingOpened settings level name attributes = opened at *
  obtain ⟨htext, hcurrent, hw, hmark', hindent', hlines, -⟩ :=
    (hleads.title (opensTitle settings attributes)).feedAll howner hlead hwords hnames
  refine ⟨htext, hw, hmark'.trans hmark, ?_, ?_⟩
  · rw [beforeWord, hw, if_neg Bool.false_ne_true, firstStart, if_pos hcurrent]
    exact hindent'.trans hindent
  · rw [← hindex, headingGap, lineIndex, hlines, List.length_append, apply_ite List.length, hend,
      hin, Bool.false_or, ← Bool.and_or_distrib_left]
    refine congrArg (opened.page.lines.length + ·) (if_congr ?_ rfl rfl)
    rw [Bool.and_eq_true, Bool.and_eq_true, decide_eq_true_eq, Bool.not_eq_true', List.any_cons]
    rfl

/-! ## (5) The heading that is open -/

/-- What is known of the heading that is open: its level, the line that was noted for it and its
text so far. -/
structure InHeading (level k : Nat) (headings : List Heading) (text : Text) (flow : Flow) :
    Prop where
  takesText : flow.TakesText
  level : flow.context.headingLevel = level
  line : flow.headingLine = k
  headings : flow.page.headings = headings
  text : flow.context.headingText = text

/-- A tag within a line keeps the heading that is open and its text. -/
theorem PhraseTag.inHeading (h : PhraseTag a b) (ha : a.InHeading level k headings s) :
    b.InHeading level k headings s := by
  obtain ⟨inTitle, titleSerial, hcontext⟩ := h.context
  refine ⟨h.takesText ha.takesText, ?_, h.headings.headingLine.trans ha.line,
    h.headings.headings.trans ha.headings, h.headings.headingText.trans ha.text⟩
  rw [hcontext]
  exact ha.level

/-- **Text** in a heading is collected. -/
theorem InHeading.feedText (h : flow.InHeading level k headings s) (hlevel : 0 < level)
    (t : Text) : (flow.feedText settings t).InHeading level k headings (s ++ t) := by
  have hopen : flow.context.inHeading = true := by
    rw [BlockContext.inHeading, h.level]
    exact decide_eq_true hlevel
  have hcollect : flow.collectHeading t = { flow with
      context := { flow.context with headingText := flow.context.headingText ++ t } } :=
    if_pos hopen
  have hsame : SameHeadings (flow.collectHeading t) ((flow.collectHeading t).addText settings t) :=
    (leadsOnlyTo_addText _ t).same_all .headings
  have hcontext := @addText_context settings (flow.collectHeading t) t
  obtain ⟨⟨hraw, hhead, hpre, htable⟩, hlevel, hline, hheadings, htext⟩ := h
  rw [TakesText.feedText ⟨hraw, hhead, hpre, htable⟩]
  rw [hcollect] at hsame hcontext ⊢
  refine ⟨⟨?_, ?_, ?_, ?_⟩, ?_, hsame.headingLine.trans hline, hsame.headings.trans hheadings, ?_⟩
  all_goals rw [hcontext]
  · exact hraw
  · exact hhead
  · exact hpre
  · exact htable
  · exact hlevel
  · exact congrArg (· ++ t) htext

/-- **The tokens of a heading** collect its text. -/
theorem InHeading.feedAll {tokens : List Token} (h : flow.InHeading level k headings s)
    (hlevel : 0 < level) (htokens : ∀ token ∈ tokens, token.IsPhrase) :
    (flow.feedAll settings tokens).InHeading level k headings (s ++ Token.contents tokens) := by
  induction tokens generalizing flow s with
  | nil =>
    rw [Token.contents_nil, List.append_nil]
    exact h
  | cons token tokens ih =>
    obtain ⟨htoken, htokens⟩ := List.forall_mem_cons.1 htokens
    rw [Token.contents_cons, ← List.append_assoc]
    refine ih ?_ htokens
    by_cases htag : ∀ t, token ≠ .text t
    · rw [Token.content_eq_nil htag, List.append_nil]
      exact (phraseTag_feed h.takesText.inHead htoken htag).inHeading h
    · obtain ⟨t, rfl⟩ : ∃ t, token = .text t := by simpa using htag
      exact h.feedText hlevel t

/-- **The opening tag** starts the heading on the next line. -/
theorem inHeading_openTag (h : flow.TakesText) (hname : TagRole.ofName name = .heading level)
    (attributes : List Attribute) :
    (flow.openTag settings name attributes).InHeading level flow.newLine.lineIndex
      flow.page.headings [] := by
  obtain ⟨anchors, notices, hopened⟩ := headingOpened_eq flow settings level name attributes
  have hopen : (flow.headingOpened settings level name attributes).InHeading level
      flow.newLine.lineIndex flow.page.headings [] := by
    rw [hopened]
    exact ⟨⟨h.rawDepth, h.inHead, h.inPre, h.inTable⟩, rfl, rfl,
      (leadsOnlyTo_newLine flow).headings, rfl⟩
  rw [openTag_heading h.inHead hname]
  dsimp only
  split
  · exact (phraseTag_openTitle _).inHeading hopen
  · exact hopen

/-- **The closing tag** records the heading, unless its text is blank. -/
theorem InHeading.closeTag (h : flow.InHeading level k headings s) (hlevel : 0 < level)
    (hname : TagRole.ofName name = .heading level) (hshown : Text.squeeze s ≠ []) :
    (flow.closeTag settings name).page.headings =
      headings ++ [⟨level, Text.squeeze s, k⟩] := by
  have htracks : flow.tracks name = true :=
    tracks_of_shown h.takesText.inHead (by rw [hname]; rfl)
  have hsame := leadsOnlyTo_newLine flow
  have hcontext := newLine_context flow
  have hrecorded : (flow.newLine.context.inHeading &&
      !(Text.squeeze flow.newLine.context.headingText).isEmpty) = true := by
    rw [hcontext, h.text, BlockContext.inHeading, h.level, decide_eq_true hlevel]
    simpa using hshown
  rw [closeTag_stacked htracks, (phraseTag_popElement _ name).headings.headings, hname]
  refine (if_pos hrecorded).trans ?_
  rw [hsame.headings, hsame.headingLine, hcontext, h.headings, h.line, h.level, h.text]

/-- **A heading** is recorded with the index of the line behind the line before it. -/
theorem headings_element {content : List Token} (h : flow.TakesText)
    (hname : TagRole.ofName name = .heading level) (attributes : List Attribute)
    (hphrase : ∀ token ∈ content, token.IsPhrase)
    (hshown : Text.squeeze (Token.contents content) ≠ []) :
    let inside := (flow.openTag settings name attributes).feedAll settings content
    (inside.closeTag settings name).page.headings = flow.page.headings ++
      [⟨level, Text.squeeze (Token.contents content), flow.newLine.lineIndex⟩] := by
  intro inside
  have hlevel := TagRole.pos_of_ofName_heading hname
  have hopen := @inHeading_openTag settings _ _ _ h hname attributes
  have hinside : inside.InHeading level flow.newLine.lineIndex flow.page.headings
      (Token.contents content) := hopen.feedAll hlevel hphrase
  exact hinside.closeTag hlevel hname hshown

/-! ## (6) The page -/

/-- **Where a heading stands.** The line that is recorded for it is the one after the line before
it, and its first word is shown there, or one line further down if its tags open a title behind
text. -/
theorem run_heading {tokens before content lead tail after : List Token} {ws : List Text}
    (htokens : tokens = before ++ .opening name attributes :: (content ++ .closing name :: after))
    (hcontent : content = lead ++ .text s :: tail)
    (hname : TagRole.ofName name = .heading level)
    (hplace : (feedAll {} settings before).TakesText) (hnested : Token.Nested content)
    (hphrase : ∀ token ∈ content, token.IsPhrase)
    (hlead : ∀ token ∈ lead, Text.words Text.isFlowBlank token.content = [])
    (hwords : Text.words Text.isFlowBlank s = word :: ws)
    (hshown : Text.squeeze (Token.contents content) ≠ []) :
    let flow := feedAll {} settings before
    let k := flow.newLine.lineIndex
    (∃ rest, (run settings tokens).page.headings =
      flow.page.headings ++ ⟨level, Text.squeeze (Token.contents content), k⟩ :: rest) ∧
    ∃ shown, flow.pendingMark ++ word <+: shown ∧ (run settings tokens).page.ShowsWord
      (k + flow.headingGap settings (.opening name attributes :: lead)) (flow.indent settings)
      shown := by
  intro flow k
  constructor
  · -- The heading is recorded by its closing tag, and stays on the page.
    have hfirst : before ++ .opening name attributes :: (content ++ [.closing name]) <+: tokens :=
      ⟨after, by simp [htokens]⟩
    obtain ⟨rest, hrest⟩ := (growsTo_flush settings hfirst).headings
    have hclosed : feedAll {} settings
        (before ++ .opening name attributes :: (content ++ [.closing name])) =
          ((flow.openTag settings name attributes).feedAll settings content).closeTag settings
            name := by
      rw [feedAll_append]
      exact feedAll_append ..
    rw [hclosed, headings_element hplace hname attributes hphrase hshown, List.append_assoc]
      at hrest
    exact ⟨rest, hrest.symm⟩
  · have hled : feedAll {} settings (before ++ .opening name attributes :: lead) =
        (flow.openTag settings name attributes).feedAll settings lead := feedAll_append ..
    rw [hcontent] at hnested hphrase
    obtain ⟨htext, hw, hmark, hstart, hindex⟩ := @leads_heading settings _ name attributes _ _ _
      hplace (begun_feedAll settings before) (titleOwned_layout settings before) hname hnested
      (fun token htoken => hphrase token (List.mem_append_left _ htoken)) hlead
    rw [← hled] at htext hw hmark hstart hindex
    have hfirst : tokens = (before ++ .opening name attributes :: lead) ++
        .text s :: (tail ++ .closing name :: after) := by simp [htokens, hcontent]
    obtain ⟨shown, hshown, hhere | ⟨-, hbegun, -⟩⟩ := run_firstWord hfirst htext hwords
      fun hbegun => absurd (hw.symm.trans hbegun) Bool.false_ne_true
    · rw [hmark] at hshown
      rw [hindex, hstart] at hhere
      exact ⟨shown, hshown, hhere⟩
    · exact absurd (hw.symm.trans hbegun) Bool.false_ne_true

end Flow

end ChapterLayout
