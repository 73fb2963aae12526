import ChapterLayout.Proofs.Flow.Fitting
import ChapterLayout.Proofs.Flow.Places

/-! # The indentation of lines

Lines start with the indentation of the blocks around their first character, whether a block begins
them, a line break or the width of the page:

* **`Flow.glyphs`** — the characters that tokens lay out, each with its place;
* **`Flow.Writes`** — whether the lines of a state are made up of certain characters;
* **`Flow.Indented.feedAll`** — well-nested tokens write their characters at their places;
* **`Flow.run_lines_indented`** — so every line of a chapter of text, quotations, lists and
  definitions starts with the indentation at its first character. -/

namespace ChapterLayout

namespace Flow

variable {settings : Settings} {flow a b : Flow} {laid more : List Glyph} {word s : Text}
  {here : Place} {glue : Bool}

/-! ## (1) Words -/

/-- Whether the lines with text of a state are made up of certain characters, in order. -/
def Writes (settings : Settings) (flow : Flow) (laid : List Glyph) : Prop :=
  ∃ chunks held, laid = chunks.flatten ++ held ∧
    List.Forall₂ (Glyph.Fills settings) (textLines flow.page.lines) chunks ∧
    (flow.hasWords = false ∧ flow.current = [] ∧ held = [] ∨
      flow.hasWords = true ∧ ∃ before word, held = before ++ word ∧
        LineHolds settings.typography (flow.indent settings) flow.current flow.continuation
          flow.wordStart flow.wordMovable before word)

/-- Whether the line of a state is ready for a word: it is made up of the indentation of the open
blocks and of the characters before that word. -/
structure Awaits (settings : Settings) (context : BlockContext) (flow : Flow)
    (laid : List Glyph) : Prop where
  inside : flow.context = context
  wraps : flow.continuation = flow.indent settings
  written : ∃ chunks before, laid = chunks.flatten ++ before ∧
    List.Forall₂ (Glyph.Fills settings) (textLines flow.page.lines) chunks ∧
    (∀ glyph ∈ before, glyph.place.indent settings.typography = flow.indent settings) ∧
    (∃ s, flow.current = flow.indent settings ++ s ∧ Glyph.Spells s (before.map Glyph.char)) ∧
    (flow.hasWords = true → before ≠ [])

/-- A line without a word is empty. -/
theorem Writes.current_eq_nil (h : Writes settings flow laid) (hw : flow.hasWords = false) :
    flow.current = [] := by
  obtain ⟨chunks, held, -, -, ⟨-, hnil, -⟩ | ⟨hw', -⟩⟩ := h
  · exact hnil
  · exact absurd (hw'.symm.trans hw) (by decide)

/-- Only the lines and the indentation count. -/
theorem Writes.keep (h : Writes settings a laid) (hfilling : b.filling = a.filling)
    (hindent : b.indent settings = a.indent settings) : Writes settings b laid := by
  simp only [filling, Filling.mk.injEq] at hfilling
  obtain ⟨hlines, hcurrent, hcontinuation, hw, hstart, hmovable⟩ := hfilling
  rw [Writes, hlines, hcurrent, hcontinuation, hw, hstart, hmovable, hindent]
  exact h

/-- Where no line is begun the indentation may change, and blank lines may be put on the page. -/
theorem Writes.blanks (h : Writes settings a laid) (hw : a.hasWords = false)
    {blanks : List Line} (hblanks : ∀ line ∈ blanks, line = [])
    (hlines : b.page.lines = a.page.lines ++ blanks) (hcurrent : b.current = a.current)
    (hwb : b.hasWords = false) : Writes settings b laid := by
  have hnil := hcurrent.trans (h.current_eq_nil hw)
  obtain ⟨chunks, held, hglyphs, hfills, ⟨-, -, hheld⟩ | ⟨hw', -⟩⟩ := h
  · refine ⟨chunks, held, hglyphs, ?_, .inl ⟨hwb, hnil, hheld⟩⟩
    rw [hlines, textLines_append, textLines_blanks hblanks, List.append_nil]
    exact hfills
  · exact absurd (hw'.symm.trans hw) (by decide)

/-- **A line that is committed** stays made up of its characters. -/
theorem Writes.commit (h : Writes settings flow laid) (hw : flow.hasWords = true) :
    Writes settings flow.commit laid := by
  obtain ⟨chunks, held, rfl, hfills, ⟨hw', -⟩ | ⟨-, before, word, rfl, hline⟩⟩ := h
  · exact absurd (hw.symm.trans hw') (by decide)
  · refine ⟨chunks ++ [before ++ word], [], ?_, forall₂_fills_push hfills hline.fills,
      .inl ⟨rfl, rfl, rfl⟩⟩
    rw [List.flatten_append, List.flatten_singleton, List.append_nil]

/-- The end of a line lays out nothing. -/
theorem Writes.newLine (h : Writes settings flow laid) (hbegun : flow.Begun settings) :
    Writes settings flow.newLine laid := by
  by_cases hnil : flow.current = []
  · obtain ⟨n, hlines, -⟩ := exists_newLine_blanks hnil
    exact h.blanks (hbegun.hasWords_eq_false hnil) (fun _ hline => List.eq_of_mem_replicate hline)
      hlines ((newLine_current flow).trans hnil.symm) (newLine_hasWords hbegun)
  · have hw : flow.hasWords = true := by
      by_contra hw
      exact hnil (h.current_eq_nil (by simpa using hw))
    rw [newLine_of_begun hnil]
    exact (h.commit hw).blanks rfl (fun line hline => absurd hline List.not_mem_nil)
      (List.append_nil _).symm rfl rfl

/-- There is room for a word at the start of a line. -/
theorem makeRoom_of_isStart (hw : flow.hasWords = false) (hstart : flow.current.IsStart) :
    flow.makeRoom settings word = flow := by
  rw [makeRoom_stay (.inr hw), separator_of_isStart hstart, List.append_nil]

/-- **Room is made for a word** behind the characters before it, or on a line of its own. -/
theorem Writes.awaits (h : Writes settings flow laid) (word : Text) :
    Awaits settings flow.context ((flow.beginLine settings).makeRoom settings word) laid := by
  obtain ⟨chunks, held, rfl, hfills, ⟨hw, hnil, rfl⟩ | ⟨hw, before, last, rfl, hline⟩⟩ := h
  · -- A line begins with its indentation, which ends in a space.
    have hroom : ((flow.beginLine settings).makeRoom settings word) =
        { flow with current := flow.indent settings, continuation := flow.indent settings } := by
      rw [beginLine_of_empty hw hnil]
      exact makeRoom_of_isStart hw (flow.context.isStart_indent settings.typography)
    rw [hroom]
    refine ⟨rfl, rfl, chunks, [], rfl, hfills, fun glyph hg => absurd hg List.not_mem_nil,
      ⟨[], (List.append_nil _).symm, Glyph.spells_nil⟩,
      fun hw' => absurd (hw'.symm.trans hw) (by decide)⟩
  · rw [beginLine_of_hasWords hw]
    rcases makeRoom_cases settings flow word with ⟨-, hroom⟩ | hroom
    · -- A line that is full is followed by one that starts in the same way.
      rw [hroom]
      refine ⟨rfl, hline.wraps, chunks ++ [before ++ last], [], ?_,
        forall₂_fills_push hfills hline.fills, fun glyph hg => absurd hg List.not_mem_nil,
        ⟨[], hline.wraps.trans (List.append_nil _).symm, Glyph.spells_nil⟩, fun hw' => nomatch hw'⟩
      rw [List.flatten_append, List.flatten_singleton, List.append_nil]
    · have hne : before ++ last ≠ [] := List.append_ne_nil_of_right_ne_nil _ hline.last_ne_nil
      obtain ⟨s, hs, hspells⟩ := hline.start
      have hspaces : ∀ c ∈ flow.separator, Text.isSpace c = true :=
        fun c hc => isSpace_of_mem_separator hc
      rw [hroom]
      refine ⟨rfl, hline.wraps, chunks, before ++ last, rfl, hfills, hline.indents,
        ⟨s ++ last.map Glyph.char ++ flow.separator, ?_, ?_⟩, fun _ => hne⟩
      · show flow.current ++ flow.separator = flow.indent settings ++ _
        rw [← List.append_assoc, ← List.append_assoc, ← hs, ← hline.last, List.take_append_drop]
      · rw [List.map_append]
        exact (hspells.append_word hline.letters).append_spaces (by simpa using hne) hspaces

/-- **A word** is put where there is room for it. -/
theorem Awaits.put {context : BlockContext} (h : Awaits settings context flow laid)
    (hne : more ≠ [])
    (hindent : ∀ glyph ∈ more, glyph.place.indent settings.typography =
      context.indent settings.typography)
    (hletters : ∀ c ∈ more.map Glyph.char, Text.isSpace c = false) :
    Writes settings (flow.startWord.place (more.map Glyph.char)) (laid ++ more) := by
  obtain ⟨rfl, hwraps, chunks, before, rfl, hfills, hindents, ⟨s, hs, hspells⟩, hbacked⟩ := h
  refine ⟨chunks, before ++ more, List.append_assoc _ _ _, hfills,
    .inr ⟨rfl, before, more, rfl, ?_⟩⟩
  exact {
    wraps := hwraps
    indents := fun glyph hg => (List.mem_append.1 hg).elim (hindents glyph) (hindent glyph)
    start := ⟨s, List.take_left.trans hs, hspells⟩
    last := List.drop_left
    last_ne_nil := hne
    letters := hletters
    backed := hbacked }

/-- **More of the last word** is put at the end of the line, and the word moves if it gets too
wide. -/
theorem Writes.fitWord (h : Writes settings a laid) (hw : a.hasWords = true)
    (hindent : ∀ glyph ∈ more, glyph.place.indent settings.typography = a.indent settings)
    (hletters : ∀ c ∈ more.map Glyph.char, Text.isSpace c = false)
    (hfilling : b.filling = { a.filling with current := a.current ++ more.map Glyph.char })
    (hcontext : b.context = a.context) :
    Writes settings (b.fitWord settings) (laid ++ more) := by
  simp only [filling, Filling.mk.injEq] at hfilling
  obtain ⟨hlines, hcurrent, hcontinuation, hwb, hstart, hmovable⟩ := hfilling
  obtain ⟨chunks, held, rfl, hfills, ⟨hw', -⟩ | ⟨-, before, word, rfl, hline⟩⟩ := h
  · exact absurd (hw.symm.trans hw') (by decide)
  · have hgrown := hline.append hindent hletters
    have hindentb : b.indent settings = a.indent settings := by rw [indent, hcontext, indent]
    rw [← hindentb, ← hcurrent, ← hcontinuation, ← hstart, ← hmovable] at hgrown
    rw [← hlines] at hfills
    rw [fitWord_eq]
    split
    · exact ⟨chunks, before ++ (word ++ more), by simp only [List.append_assoc], hfills,
        .inr ⟨hwb.trans hw, before, word ++ more, rfl, hgrown⟩⟩
    · -- The characters before the word are a line now, and the word stands behind the indentation.
      rename_i hfit
      have hm : b.wordMovable = true := by
        by_contra hm
        exact hfit (by simp [hm])
      refine ⟨chunks ++ [before], word ++ more, ?_, forall₂_fills_push hfills
        (hgrown.fills_before hm), .inr ⟨rfl, [], word ++ more, rfl, hgrown.move⟩⟩
      simp only [List.flatten_append, List.flatten_singleton, List.append_assoc]

/-- **A word** is laid out at its place, behind the mark of inline code that is pending. -/
theorem Writes.addWord (h : Writes settings flow laid) (hbegun : flow.Begun settings)
    (hhere : here.indent settings.typography = flow.indent settings) (hne : word ≠ [])
    (hword : ∀ c ∈ word, Text.isFlowBlank c = false) (glue : Bool) :
    Writes settings (flow.addWord settings word glue)
      (laid ++ Glyph.ofText here (flow.pendingMark ++ word)) := by
  have hchars := Glyph.map_char_ofText here (flow.pendingMark ++ word)
  have hindent : ∀ glyph ∈ Glyph.ofText here (flow.pendingMark ++ word),
      glyph.place.indent settings.typography = flow.indent settings := by
    intro glyph hg
    rw [Glyph.place_of_mem_ofText hg, hhere]
  have hletters : ∀ c ∈ (Glyph.ofText here (flow.pendingMark ++ word)).map Glyph.char,
      Text.isSpace c = false := by
    rw [hchars]
    exact isSpace_of_letter (mark_isLetter hbegun.pendingMark hword)
  -- A word that is glued is part of the last one, and any other starts behind it.
  by_cases hglue : (glue && flow.hasWords) = true
  · obtain ⟨rfl, hw⟩ := Bool.and_eq_true_iff.1 hglue
    rw [addWord_glued hw]
    refine h.fitWord hw hindent hletters ?_ rfl
    rw [hchars]
    simp [filling, place, unmarked, hw]
  · have hmarked : Writes settings flow.unmarked laid := h.keep rfl rfl
    have hsome : Glyph.ofText here (flow.pendingMark ++ word) ≠ [] := by
      simpa [Glyph.ofText] using fun _ => hne
    have hput := (hmarked.awaits (flow.pendingMark ++ word)).put hsome hindent hletters
    rw [hchars] at hput
    rw [addWord_fresh (by simpa using hglue)]
    exact hput

/-! ## (2) Open blocks -/

/-- Whether text goes to the lines, and the blocks around a place are open. -/
structure StandsAt (flow : Flow) (here : Place) : Prop extends TakesWords flow where
  quotes : flow.context.quoteDepth = here.ancestors.count .quote
  lists : flow.context.lists.length = here.ancestors.countP TagRole.isList
  description : flow.context.inDescription = here.inDescription

/-- The open blocks indent lines as their place asks for. -/
theorem StandsAt.indent_eq (h : flow.StandsAt here) (settings : Settings) :
    here.indent settings.typography = flow.indent settings := by
  rw [Place.indent, Flow.indent, BlockContext.indent, h.quotes, h.lists, h.description]
  simp only [List.count_pos_iff]

/-- Steps that leave the context alone stay at their place. -/
theorem StandsAt.keep (h : a.StandsAt here) (hcontext : b.context = a.context) :
    b.StandsAt here := by
  obtain ⟨⟨hraw, hhead, hpre, htable, hserial⟩, hquotes, hlists, hdescription⟩ := h
  rw [← hcontext] at hraw hhead hpre htable hserial hquotes hlists hdescription
  exact ⟨⟨hraw, hhead, hpre, htable, hserial⟩, hquotes, hlists, hdescription⟩

/-- An element is entered. -/
theorem StandsAt.enter {role : TagRole} (h : a.StandsAt here) (hrole : role.isFlowing = true)
    (hcontext : b.context = role.enter a.context) : b.StandsAt (here.enter role) := by
  obtain ⟨⟨hraw, hhead, hpre, htable, hserial⟩, hquotes, hlists, hdescription⟩ := h
  refine ⟨⟨?_, ?_, ?_, ?_, ?_⟩, ?_, ?_, ?_⟩
  all_goals
    rw [hcontext]
    cases role <;> simp_all [TagRole.isFlowing, TagRole.isList, TagRole.enter, Place.enter,
      BlockContext.enterList, BlockContext.enterQuote, List.countP_cons]

/-- The innermost element is left. -/
theorem StandsAt.leave {role : TagRole} {outer : List TagRole} (h : a.StandsAt here)
    (hrole : role.isFlowing = true) (hinside : here.ancestors = role :: outer)
    (hcontext : b.context = role.leave a.context) : b.StandsAt (here.leave role) := by
  obtain ⟨⟨hraw, hhead, hpre, htable, hserial⟩, hquotes, hlists, hdescription⟩ := h
  rw [hinside] at hquotes hlists
  refine ⟨⟨?_, ?_, ?_, ?_, ?_⟩, ?_, ?_, ?_⟩
  all_goals
    rw [hcontext]
    cases role <;> simp_all [TagRole.isFlowing, TagRole.isList, TagRole.leave, Place.leave,
      BlockContext.leaveList, BlockContext.leaveQuote, List.countP_cons]

/-- Whether a state is at a place and has laid out certain characters. -/
structure Indented (settings : Settings) (flow : Flow) (here : Place) (laid : List Glyph) :
    Prop where
  begun : flow.Begun settings
  stands : flow.StandsAt here
  writes : Writes settings flow laid

/-! ## (3) Text -/

/-- Whether the end of inline code is marked. -/
def endsCode (flow : Flow) : Bool :=
  flow.codeDepth != 0 && flow.pendingMark.isEmpty && flow.hasWords

/-- The characters that a token lays out: the letters of text, behind the mark of inline code that
is pending, and the mark that ends inline code. -/
def laysOut (flow : Flow) : Token → Text
  | .text s =>
    let letters := s.filter fun c => !Text.isFlowBlank c
    if letters.isEmpty then [] else flow.pendingMark ++ letters
  | .closing name =>
    if TagRole.ofName name == .code && flow.endsCode then ['\x60'] else []
  | _ => []

/-- The characters that tokens lay out, each with its place. -/
def glyphs (settings : Settings) (flow : Flow) (here : Place) : List Token → List Glyph
  | [] => []
  | token :: tokens =>
    Glyph.ofText here (flow.laysOut token) ++
      glyphs settings (flow.feed settings token) (here.after token) tokens

/-- A word is laid out at its place, with the mark before it. -/
theorem Indented.addWord (h : Indented settings flow here laid) (hne : word ≠ [])
    (hword : ∀ c ∈ word, Text.isFlowBlank c = false) (glue : Bool) :
    Indented settings (flow.addWord settings word glue) here
      (laid ++ Glyph.ofText here (flow.pendingMark ++ word)) where
  begun := h.begun.change (.word flow h.stands.inPre word hne hword glue)
  stands := h.stands.keep (addWord_context flow word glue)
  writes := h.writes.addWord h.begun (h.stands.indent_eq settings) hne hword glue

/-- **Words** are laid out one after the other. -/
theorem Indented.addWords {words : List Text} (h : Indented settings flow here laid)
    (hmark : flow.pendingMark = []) (hne : ∀ w ∈ words, w ≠ [])
    (hletter : ∀ w ∈ words, ∀ c ∈ w, Text.isFlowBlank c = false) :
    Indented settings (flow.addWords settings words) here
      (laid ++ Glyph.ofText here words.flatten) := by
  induction words generalizing flow laid with
  | nil => exact (List.append_nil laid).symm ▸ h
  | cons w words ih =>
    have hfirst := h.addWord (hne w List.mem_cons_self) (hletter w List.mem_cons_self) false
    have hrest := ih hfirst (congrArg Control.pendingMark (addWord_control flow w false))
      (fun v hv => hne v (List.mem_cons_of_mem _ hv))
      (fun v hv => hletter v (List.mem_cons_of_mem _ hv))
    rw [hmark, List.nil_append, List.append_assoc, ← Glyph.ofText_append] at hrest
    exact hrest

/-- Whether the next word stands apart is laid out with that word. -/
theorem Indented.setGlue (h : Indented settings flow here laid) (glue : Bool) :
    Indented settings { flow with glue } here laid :=
  ⟨h.begun.change (.glue flow glue), h.stands.keep rfl, h.writes.keep rfl rfl⟩

/-- **Text** is laid out at its place. -/
theorem Indented.addText (h : Indented settings flow here laid) (s : Text) :
    Indented settings (flow.addText settings s) here
      (laid ++ Glyph.ofText here (flow.laysOut (.text s))) := by
  have hlaid : flow.laysOut (.text s) =
      if (Text.words Text.isFlowBlank s).flatten.isEmpty then []
      else flow.pendingMark ++ (Text.words Text.isFlowBlank s).flatten := by
    rw [Text.words_flatten]
    rfl
  have hne : ∀ w ∈ Text.words Text.isFlowBlank s, w ≠ [] := fun w hw => Text.ne_nil_of_mem_words hw
  have hletter : ∀ w ∈ Text.words Text.isFlowBlank s, ∀ c ∈ w, Text.isFlowBlank c = false :=
    fun w hw c hc => Text.letter_of_mem_words hw hc
  rw [hlaid]
  unfold Flow.addText
  generalize hwords : Text.words Text.isFlowBlank s = words at hne hletter
  cases words with
  | nil =>
    have hsame : Indented settings flow here (laid ++ []) := (List.append_nil laid).symm ▸ h
    split
    · exact hsame
    · exact hsame.setGlue false
  | cons w words =>
    have hsome : ¬s.isEmpty = true := by
      intro hnil
      rw [List.isEmpty_iff.1 hnil] at hwords
      exact nomatch hwords
    have hflat : ¬(w :: words).flatten.isEmpty = true := by simp [hne w List.mem_cons_self]
    have hfirst := h.addWord (hne w List.mem_cons_self) (hletter w List.mem_cons_self)
      (flow.glue && !startsBlank s)
    -- Only the first word stands behind a mark.
    have hrest := hfirst.addWords (congrArg Control.pendingMark (addWord_control flow w _))
      (fun v hv => hne v (List.mem_cons_of_mem _ hv))
      (fun v hv => hletter v (List.mem_cons_of_mem _ hv))
    rw [List.append_assoc, ← Glyph.ofText_append, List.append_assoc] at hrest
    rw [if_neg hsome, if_neg hflat]
    exact hrest.setGlue _

/-! ## (4) Tags -/

/-- The blocks change where no line is begun. -/
theorem Writes.update (h : Writes settings flow laid) (hbegun : flow.Begun settings)
    (f : BlockContext → BlockContext) :
    Writes settings (flow.newLine.updateContext f) laid :=
  (h.newLine hbegun).blanks (newLine_hasWords hbegun)
    (fun _ hline => absurd hline List.not_mem_nil) (List.append_nil _).symm rfl
    (newLine_hasWords hbegun)

/-- The start of a block lays out nothing. -/
theorem Writes.openBlock {role : TagRole} (h : Writes settings flow laid)
    (hbegun : flow.Begun settings) (hrole : role.isFlowing = true) :
    Writes settings (flow.openBlock settings role) laid := by
  cases role with
  | list ordered => exact h.update hbegun _
  | quote => exact h.update hbegun _
  | description => exact h.update hbegun _
  | code =>
    rw [Flow.openBlock]
    split
    · exact h
    · exact h.keep rfl rfl
  | paragraph => exact h.newLine hbegun
  | block => exact h.newLine hbegun
  | inline => exact h
  | _ => cases hrole

/-- The end of a paragraph lays out nothing. -/
theorem Writes.paragraphBreak (h : Writes settings flow laid) (hbegun : flow.Begun settings) :
    Writes settings (flow.paragraphBreak settings) laid := by
  obtain ⟨n, hbreak, -⟩ := exists_paragraphBreak_blanks settings flow
  rw [hbreak]
  exact (h.newLine hbegun).blanks (newLine_hasWords hbegun)
    (fun _ hline => List.eq_of_mem_replicate hline) rfl rfl (newLine_hasWords hbegun)

/-- The mark that ends inline code stands behind the last word. -/
theorem Writes.closeCode (h : Writes settings flow laid)
    (hhere : here.indent settings.typography = flow.indent settings) :
    Writes settings (flow.closeCode settings)
      (laid ++ Glyph.ofText here (if flow.endsCode then ['\x60'] else [])) := by
  rw [closeCode_eq]
  -- The mark is written only where the end of the element puts one behind a word.
  by_cases hends : flow.endsCode = true
  · rw [if_pos hends]
    simp only [endsCode, Bool.and_eq_true, bne_iff_ne] at hends
    obtain ⟨⟨hdepth, hmark⟩, hw⟩ := hends
    have hchars := Glyph.map_char_ofText here ['\x60']
    rw [if_neg hdepth, if_neg (by simpa using hmark), if_pos hw]
    refine h.fitWord hw (fun glyph hg => ?_) ?_ ?_ rfl
    · rw [Glyph.place_of_mem_ofText hg, hhere]
    · rw [hchars]
      exact isSpace_codeMark
    · rw [hchars]
      rfl
  · rw [if_neg hends]
    have hsame : Writes settings flow (laid ++ []) := (List.append_nil laid).symm ▸ h
    split
    · exact hsame
    · split
      · exact hsame.keep rfl rfl
      · split
        · simp_all [endsCode]
        · exact hsame.keep rfl rfl

/-- The end of a block lays out at most the mark that ends inline code. -/
theorem Writes.closeBlock {name : Text} (h : Writes settings flow laid)
    (hbegun : flow.Begun settings) (hpre : flow.context.inPre = false)
    (hhere : here.indent settings.typography = flow.indent settings)
    (hrole : (TagRole.ofName name).isFlowing = true) :
    Writes settings (flow.closeBlock settings (TagRole.ofName name))
      (laid ++ Glyph.ofText here (flow.laysOut (.closing name))) := by
  by_cases hcode : TagRole.ofName name = .code
  · have hlaid : flow.laysOut (.closing name) = if flow.endsCode then ['\x60'] else [] := by
      simp [laysOut, hcode]
    rw [hcode, hlaid, Flow.closeBlock, hpre, if_neg (by decide)]
    exact h.closeCode hhere
  · have hlaid : flow.laysOut (.closing name) = [] := by simp [laysOut, hcode]
    have hsame : Writes settings flow (laid ++ []) := (List.append_nil laid).symm ▸ h
    rw [hlaid]
    generalize TagRole.ofName name = role at hrole hcode
    cases role with
    | list ordered => exact hsame.update hbegun _
    | quote => exact hsame.update hbegun _
    | description => exact hsame.update hbegun _
    | code => exact absurd rfl hcode
    | paragraph => exact hsame.paragraphBreak hbegun
    | block => exact hsame.newLine hbegun
    | inline => exact hsame
    | _ => cases hrole

/-- Elements, anchors and notices lay out nothing. -/
theorem Writes.withElements (h : Writes settings flow laid) (styles : Stack)
    (anchors : List (Text × Int)) (notices : List Notice) :
    Writes settings (flow.withElements styles anchors notices) laid :=
  h.keep rfl rfl

/-- A tag acts on the stack, unless it is one of raw text or of a table. -/
theorem TakesWords.tracks {name : Text} (h : flow.TakesWords)
    (hrole : (TagRole.ofName name).isFlowing = true) : flow.tracks name = true := by
  rw [Flow.tracks, h.hides]
  generalize TagRole.ofName name = role at hrole
  cases role <;> first | rfl | cases hrole

/-- An opening tag opens its block and puts its element on the stack. -/
theorem exists_openTag {name : Text} {attributes : List Attribute} (h : flow.TakesWords)
    (hrole : (TagRole.ofName name).isFlowing = true)
    (htitle : opensTitle settings attributes = false) :
    ∃ styles anchors notices, flow.openTag settings name attributes =
      (flow.openBlock settings (TagRole.ofName name)).withElements styles anchors notices := by
  rw [openTag_stacked (h.tracks hrole)]
  generalize flow.openBlock settings (TagRole.ofName name) = block
  obtain ⟨anchors, hanchors⟩ := exists_recordAnchor block attributes
  refine ⟨block.styles.push name attributes settings.classStyles, anchors, block.notices ++
    (Frame.unmappedClasses attributes settings.classStyles).map .unmappedClass, ?_⟩
  simp only [hanchors, htitle, Bool.and_false, Bool.false_eq_true, if_false]
  rfl

/-- A closing tag closes its block and takes its element from the stack. -/
theorem exists_closeTag {name : Text} (h : flow.TakesWords)
    (hrole : (TagRole.ofName name).isFlowing = true)
    (hserial : (flow.closeBlock settings (TagRole.ofName name)).context.titleSerial = none) :
    ∃ styles anchors notices, flow.closeTag settings name =
      (flow.closeBlock settings (TagRole.ofName name)).withElements styles anchors notices := by
  rw [closeTag_stacked (h.tracks hrole)]
  generalize flow.closeBlock settings (TagRole.ofName name) = block at hserial
  unfold popElement
  cases block.styles.pop? name with
  | none => exact ⟨block.styles, block.page.anchors, _, rfl⟩
  | some popped =>
    refine ⟨popped.2, block.page.anchors, block.notices, ?_⟩
    simp [hserial, withElements]

/-- An element that is closed in its own tag ends the line at most, unless it is an image or a
rule. -/
theorem exists_emptyTag {name : Text} (h : flow.TakesWords) (himg : name ≠ "img".toList)
    (hhr : name ≠ "hr".toList) (settings : Settings) (attributes : List Attribute) :
    ∃ anchors, flow.emptyTag settings name attributes =
        flow.withElements flow.styles anchors flow.notices ∨
      flow.emptyTag settings name attributes =
        flow.newLine.withElements flow.newLine.styles anchors flow.newLine.notices := by
  obtain ⟨anchors, hanchors⟩ := exists_recordAnchor flow attributes
  obtain ⟨anchors', hanchors'⟩ := exists_recordAnchor flow.newLine attributes
  have himg' : (name == "img".toList) = false := beq_eq_false_iff_ne.2 himg
  have hhr' : (name == "hr".toList) = false := beq_eq_false_iff_ne.2 hhr
  have hbreak : flow.breakLine settings = flow.newLine := by
    simp [breakLine, h.inTable, h.inPre]
  simp only [emptyTag, h.inHead, himg', hhr', hbreak, Bool.false_eq_true, if_false]
  split_ifs
  · exact ⟨anchors', .inr hanchors'⟩
  · exact ⟨anchors', .inr hanchors'⟩
  · exact ⟨anchors, .inl hanchors⟩

/-! ## (5) Runs -/

/-- Text is laid out at its place. -/
theorem Indented.text (h : Indented settings flow here laid) (s : Text) :
    Indented settings (flow.feed settings (.text s)) here
      (laid ++ Glyph.ofText here (flow.laysOut (.text s))) := by
  have hbegun := h.begun.changes (collectHeading_changes flow s)
  obtain ⟨hraw, hhead, hpre, htable, hserial⟩ := h.stands.toTakesWords
  obtain ⟨headingText, hcollect⟩ := exists_collectHeading flow s
  rw [hcollect] at hbegun
  -- The text that is collected for a heading is not one of the blocks around a place.
  have hcollected : Indented settings { flow with context := { flow.context with headingText } }
      here laid :=
    ⟨hbegun, ⟨⟨hraw, hhead, hpre, htable, hserial⟩, h.stands.quotes, h.stands.lists,
      h.stands.description⟩, h.writes.keep rfl rfl⟩
  rw [feed_text h.stands.toTakesWords, hcollect]
  exact hcollected.addText s

/-- An opening tag leads into its block and lays out nothing. -/
theorem Indented.opening {name : Text} {attributes : List Attribute}
    (h : Indented settings flow here laid) (hrole : (TagRole.ofName name).isFlowing = true)
    (htitle : opensTitle settings attributes = false) :
    Indented settings (flow.feed settings (.opening name attributes))
      (here.enter (TagRole.ofName name)) laid := by
  have hbegun := h.begun.changes (feed_changes flow (.opening name attributes))
  obtain ⟨styles, anchors, notices, hopen⟩ :=
    exists_openTag h.stands.toTakesWords hrole htitle
  have hcontext := (openBlock_leadsTo settings flow (TagRole.ofName name)).context
  rw [feed, hopen] at hbegun ⊢
  exact ⟨hbegun, h.stands.enter hrole hcontext,
    (h.writes.openBlock h.begun hrole).withElements _ _ _⟩

/-- A closing tag leads out of its block and lays out at most the mark that ends inline code. -/
theorem Indented.closing {name : Text} {outer : List TagRole}
    (h : Indented settings flow here laid) (hrole : (TagRole.ofName name).isFlowing = true)
    (hinside : here.ancestors = TagRole.ofName name :: outer) :
    Indented settings (flow.feed settings (.closing name)) (here.leave (TagRole.ofName name))
      (laid ++ Glyph.ofText here (flow.laysOut (.closing name))) := by
  have hbegun := h.begun.changes (feed_changes flow (.closing name))
  have hcontext := (closeBlock_leadsTo settings flow (TagRole.ofName name)).context
  have hstands := h.stands.leave hrole hinside hcontext
  obtain ⟨styles, anchors, notices, hclose⟩ :=
    exists_closeTag h.stands.toTakesWords hrole hstands.titleSerial
  rw [feed, hclose] at hbegun ⊢
  exact ⟨hbegun, hstands.keep rfl, (h.writes.closeBlock h.begun h.stands.inPre
    (h.stands.indent_eq settings) hrole).withElements _ _ _⟩

/-- Elements without content lay out nothing, other than images and rules. -/
theorem Indented.empty {name : Text} {attributes : List Attribute}
    (h : Indented settings flow here laid) (himg : name ≠ "img".toList)
    (hhr : name ≠ "hr".toList) :
    Indented settings (flow.feed settings (.empty name attributes)) here laid := by
  have hbegun := h.begun.changes (feed_changes flow (.empty name attributes))
  obtain ⟨anchors, hempty | hempty⟩ :=
    exists_emptyTag h.stands.toTakesWords himg hhr settings attributes
  · rw [feed, hempty] at hbegun ⊢
    exact ⟨hbegun, h.stands.keep rfl, h.writes.withElements _ _ _⟩
  · rw [feed, hempty] at hbegun ⊢
    exact ⟨hbegun, h.stands.keep (newLine_context flow),
      (h.writes.newLine h.begun).withElements _ _ _⟩

/-- The characters of tokens come in the order of the tokens. -/
theorem glyphs_append (settings : Settings) (flow : Flow) (here : Place) (s t : List Token) :
    glyphs settings flow here (s ++ t) = glyphs settings flow here s ++
      glyphs settings (flow.feedAll settings s) (here.afterAll s) t := by
  induction s generalizing flow here with
  | nil => rfl
  | cons token tokens ih =>
    rw [List.cons_append, glyphs, glyphs, ih, List.append_assoc]
    rfl

/-- **Well-nested tokens** are laid out at their places. -/
theorem Indented.feedAll {tokens : List Token} (hnested : Token.Nested tokens)
    (hflowing : ∀ token ∈ tokens, token.IsFlowing settings)
    (h : Indented settings flow here laid) :
    Indented settings (flow.feedAll settings tokens) (here.afterAll tokens)
      (laid ++ glyphs settings flow here tokens) := by
  induction hnested generalizing flow here laid with
  | nil => exact (List.append_nil laid).symm ▸ h
  | text s rest ih =>
    have hrest := ih (fun token ht => hflowing token (List.mem_cons_of_mem _ ht)) (h.text s)
    rw [List.append_assoc] at hrest
    exact hrest
  | empty name attributes rest ih =>
    obtain ⟨himg, hhr⟩ := hflowing _ List.mem_cons_self
    exact ih (fun token ht => hflowing token (List.mem_cons_of_mem _ ht)) (h.empty himg hhr)
  | element name attributes inner rest ihInner ihRest =>
    rename_i content tokens
    obtain ⟨hrole, htitle⟩ := hflowing _ List.mem_cons_self
    have hinside : ∀ token ∈ content, token.IsFlowing settings := fun token ht =>
      hflowing token (List.mem_cons_of_mem _ (List.mem_append_left _ ht))
    have hbehind : ∀ token ∈ tokens, token.IsFlowing settings := fun token ht =>
      hflowing token (List.mem_cons_of_mem _ (List.mem_append_right _ (List.mem_cons_of_mem _ ht)))
    -- The closing tag finds its own element around it, since the content is well nested.
    have hcontent := ihInner hinside (h.opening hrole htitle)
    have hclosed := hcontent.closing hrole (Place.ancestors_afterAll inner _)
    have hrest := ihRest hbehind hclosed
    rw [List.append_assoc, List.append_assoc] at hrest
    rw [Flow.feedAll, List.foldl_cons, List.foldl_append, List.foldl_cons, Place.afterAll,
      List.foldl_cons, List.foldl_append, List.foldl_cons, glyphs, glyphs_append, glyphs]
    exact hrest

/-- If no definition is opened in another one, the ancestors of every character tell whether it
stands in a definition. -/
theorem scoped_glyphs {tokens : List Token} (hnested : Token.Nested tokens)
    (hapart : here.descriptionsApart tokens = true) (h : here.Scoped) (settings : Settings)
    (flow : Flow) :
    (here.afterAll tokens).Scoped ∧
      ∀ glyph ∈ glyphs settings flow here tokens, glyph.place.Scoped := by
  have hat : ∀ {place : Place} {s : Text}, place.Scoped →
      ∀ glyph ∈ Glyph.ofText place s, glyph.place.Scoped := fun hplace glyph hg =>
    (Glyph.place_of_mem_ofText hg).symm ▸ hplace
  -- The induction is on the nesting, with the place and the state generalized: an element has its
  -- content one place further in, and what is behind it again here.
  induction hnested generalizing here flow with
  | nil => exact ⟨h, fun _ hg => absurd hg List.not_mem_nil⟩
  | text s rest ih =>
    obtain ⟨hend, hrest⟩ := ih (Bool.and_eq_true_iff.1 hapart).2 h (flow.feed settings (.text s))
    exact ⟨hend, fun glyph hg => (List.mem_append.1 hg).elim (hat h glyph) (hrest glyph)⟩
  | empty name attributes rest ih =>
    exact ih (Bool.and_eq_true_iff.1 hapart).2 h _
  | element name attributes inner rest ihInner ihRest =>
    rename_i content tokens
    obtain ⟨hopens, hinside⟩ := Bool.and_eq_true_iff.1 hapart
    rw [Place.descriptionsApart_append] at hinside
    obtain ⟨hinner, hbehind⟩ := Bool.and_eq_true_iff.1 hinside
    have hancestors := Place.ancestors_afterAll inner (here.enter (TagRole.ofName name))
    obtain ⟨hend, hcontent⟩ := ihInner hinner (h.enter (TagRole.ofName name))
      (flow.feed settings (.opening name attributes))
    obtain ⟨hend', hrest⟩ := ihRest (Bool.and_eq_true_iff.1 hbehind).2
      (hend.leave hancestors hopens) _
    rw [Place.afterAll, List.foldl_cons, List.foldl_append, List.foldl_cons, glyphs, glyphs_append,
      glyphs]
    refine ⟨hend', fun glyph hg => ?_⟩
    rcases List.mem_append.1 (List.mem_append.1 hg |>.resolve_left List.not_mem_nil) with hg | hg
    · exact hcontent glyph hg
    · exact (List.mem_append.1 hg).elim (hat hend glyph) (hrest glyph)

/-- The lines of a state with no word on its line are made up of all its characters. -/
theorem Writes.lines (h : Writes settings flow laid) (hw : flow.hasWords = false) :
    ∃ chunks, chunks.flatten = laid ∧
      List.Forall₂ (Glyph.Fills settings) (textLines flow.page.lines) chunks := by
  obtain ⟨chunks, held, rfl, hfills, ⟨-, -, rfl⟩ | ⟨hw', -⟩⟩ := h
  · exact ⟨chunks, (List.append_nil _).symm, hfills⟩
  · exact absurd (hw'.symm.trans hw) (by decide)

/-- The end of a chapter completes the line. -/
theorem Indented.flush (h : Indented settings flow here laid) :
    Writes settings (flow.flush settings) laid ∧ (flow.flush settings).hasWords = false := by
  rw [flush_eq h.stands.inTable]
  simp only [h.stands.inPre, Bool.false_eq_true, if_false]
  split
  · rename_i hnil
    exact ⟨h.writes, h.begun.hasWords_eq_false (List.isEmpty_iff.1 hnil)⟩
  · rename_i hsome
    refine ⟨h.writes.commit ?_, rfl⟩
    by_contra hw
    exact hsome (List.isEmpty_iff.2 (h.writes.current_eq_nil (by simpa using hw)))

/-- Only lines without text are dropped at the end of a page. -/
theorem textLines_dropTrailingBlanks (lines : List Line) :
    textLines (dropTrailingBlanks lines) = textLines lines := by
  obtain ⟨blanks, hblanks, hall⟩ := exists_dropTrailingBlanks_append lines
  conv_rhs => rw [hblanks]
  rw [textLines_append, textLines_blanks hall, List.append_nil]

/-- **Every line with text starts with the indentation at its first character**, and the lines hold
the characters of the tokens in order. A definition ends at the next closing tag of one, and so the
indentation is that of the ancestors if no definition is opened in another one. -/
theorem run_lines_indented {tokens : List Token} (hnested : Token.Nested tokens)
    (hflowing : ∀ token ∈ tokens, token.IsFlowing settings) :
    (∃ chunks, chunks.flatten = glyphs settings {} {} tokens ∧
      List.Forall₂ (Glyph.Fills settings) (textLines (run settings tokens).page.lines) chunks) ∧
    (Place.descriptionsApart {} tokens = true →
      ∀ glyph ∈ glyphs settings {} {} tokens,
        glyph.place.inDescription = glyph.place.ancestors.contains .description) := by
  have hstart : Indented settings {} {} [] :=
    ⟨begun_of_empty (.inl rfl) rfl rfl, ⟨⟨rfl, rfl, rfl, rfl, rfl⟩, rfl, rfl, rfl⟩,
      [], [], rfl, .nil, .inl ⟨rfl, rfl, rfl⟩⟩
  have hend := Indented.feedAll hnested hflowing hstart
  obtain ⟨hwrites, hw⟩ := hend.flush
  refine ⟨?_, fun hapart => (scoped_glyphs hnested hapart rfl settings {}).2⟩
  obtain ⟨chunks, hchunks, hfills⟩ := hwrites.lines hw
  refine ⟨chunks, hchunks, ?_⟩
  show List.Forall₂ _ (textLines (dropTrailingBlanks _)) _
  rw [textLines_dropTrailingBlanks]
  exact hfills

/-- A definition in a list in a quotation, with lines that the width ends, a line break, and inline
code. -/
theorem run_lines_indented_quote :
    let tokens : List Token :=
      [.opening "blockquote".toList [], .text "one ".toList, .opening "code".toList [],
        .text "two".toList, .closing "code".toList, .text " three".toList,
        .opening "ul".toList [], .opening "dd".toList [], .text "four five".toList,
        .empty "br".toList [], .closing "dd".toList, .text "six".toList, .closing "ul".toList,
        .closing "blockquote".toList, .text "seven".toList]
    let settings : Settings := { maxWidth := 16 }
    (run settings tokens).page.lines =
        ["│   one \x60two\x60".toList, "│   three".toList, [], "│         four".toList,
          "│         five".toList, [], "│     six".toList, [], "seven".toList] ∧
      Place.descriptionsApart {} tokens = true ∧
      (∃ chunks, chunks.flatten = glyphs settings {} {} tokens ∧
        List.Forall₂ (Glyph.Fills settings) (textLines (run settings tokens).page.lines) chunks) ∧
      ∀ glyph ∈ glyphs settings {} {} tokens,
        glyph.place.inDescription = glyph.place.ancestors.contains .description := by
  intro tokens settings
  have hlist : Token.Nested [.opening "ul".toList [], .opening "dd".toList [],
      .text "four five".toList, .empty "br".toList [], .closing "dd".toList, .text "six".toList,
      .closing "ul".toList] :=
    .element _ _ (.element _ _ (.text _ (.empty _ _ .nil)) (.text _ .nil)) .nil
  have hquote : Token.Nested (.text "one ".toList :: .opening "code".toList [] ::
      .text "two".toList :: .closing "code".toList :: .text " three".toList ::
      [.opening "ul".toList [], .opening "dd".toList [], .text "four five".toList,
        .empty "br".toList [], .closing "dd".toList, .text "six".toList, .closing "ul".toList]) :=
    .text _ (.element _ _ (.text _ .nil) (.text _ hlist))
  have hnested : Token.Nested tokens := .element _ _ hquote (.text _ .nil)
  have hlines : (run settings tokens).page.lines =
      ["│   one \x60two\x60".toList, "│   three".toList, [], "│         four".toList,
        "│         five".toList, [], "│     six".toList, [], "seven".toList] := by decide +kernel
  have hapart : Place.descriptionsApart {} tokens = true := by decide +kernel
  obtain ⟨hfills, hscoped⟩ := run_lines_indented hnested
    (show ∀ token ∈ tokens, token.IsFlowing settings by decide +kernel)
  exact ⟨hlines, hapart, hfills, hscoped hapart⟩

/-- Behind a definition in another one, lines have no indentation in spite of the outer one. -/
theorem run_lines_indented_inner :
    let tokens : List Token :=
      [.opening "dl".toList [], .opening "dd".toList [], .text ['a'], .opening "dl".toList [],
        .opening "dd".toList [], .text ['b'], .closing "dd".toList, .closing "dl".toList,
        .text ['c'], .closing "dd".toList, .closing "dl".toList]
    Token.Nested tokens ∧ (∀ token ∈ tokens, token.IsFlowing {}) ∧
      (run {} tokens).page.lines = ["    a".toList, [], "    b".toList, [], ['c']] ∧
      (glyphs {} {} {} tokens).getLast? = some ⟨'c', ⟨[.description, .block], false⟩⟩ := by
  intro tokens
  have hinner : Token.Nested [.text ['a'], .opening "dl".toList [], .opening "dd".toList [],
      .text ['b'], .closing "dd".toList, .closing "dl".toList, .text ['c']] :=
    .text _ (.element _ _ (.element _ _ (.text _ .nil) .nil) (.text _ .nil))
  have hnested : Token.Nested tokens := .element _ _ (.element _ _ hinner .nil) .nil
  exact ⟨hnested, by decide +kernel, by decide +kernel, by decide +kernel⟩

end Flow

end ChapterLayout
