import ChapterLayout.Proofs.Flow.TypedMarks

/-! # The marks of inline code

A mark before the first word of inline code waits until the word comes, and the mark behind its last
word is put at the end of the line when the element ends. The lines are nevertheless those of the
tokens with the marks typed into their texts, if the last word is still on its line then, and no
other mark is waiting when the element starts:

* **`Flow.SameLines`** — whether two states lay out the same lines from there on;
* **`addText_markStart`** — a mark that is waiting could have been typed before the first word;
* **`outline_addWord_mark`**, **`outline_addText_markEnd`** — a mark put behind a word that was laid
  out could have been typed there, also where it makes the word move to the next line;
* **`sameLines_code`** — so an element of inline code lays out the lines of its text with marks;
* **`Flow.marksCode`** — where the marks of inline code are put as they should;
* **`laysOut_codeMarked`** — where they are, tokens lay out the lines of their texts with marks. -/

namespace ChapterLayout

namespace Flow

variable {settings : Settings} {flow a b : Flow} {s w : Text} {ws : List Text} {token : Token}
  {tokens content inner marked : List Token} {name : Text} {attributes : List Attribute} {n : Nat}

/-! ## (1) States that lay out the same lines -/

/-- Whether two states lay out the same lines, apart from the ends of inline code. -/
structure SameLines (a b : Flow) : Prop where
  outline : a.outline = b.outline
  pendingMark : a.pendingMark = b.pendingMark

/-- A state lays out the same lines as itself. -/
theorem sameLines_refl (flow : Flow) : SameLines flow flow := ⟨rfl, rfl⟩

/-- Laying out the same lines is transitive. -/
theorem SameLines.trans {c : Flow} (hab : SameLines a b) (hbc : SameLines b c) : SameLines a c :=
  ⟨hab.outline.trans hbc.outline, hab.pendingMark.trans hbc.pendingMark⟩

/-- The same step without words leaves states that lay out the same lines. -/
theorem SameLines.wordless {f : Flow → Flow} {k : Nat} (hf : Wordless settings k f)
    (h : SameLines a b) : SameLines (f a) (f b) :=
  ⟨hf.blind.congr h.outline, by rw [hf.pendingMark, hf.pendingMark, h.pendingMark]⟩

/-- After a word no mark is waiting. -/
theorem addWord_pendingMark (flow : Flow) (word : Text) (glue : Bool) :
    (flow.addWord settings word glue).pendingMark = [] :=
  congrArg Control.pendingMark (addWord_control flow word glue)

/-- The same word leaves states that lay out the same lines. -/
theorem SameLines.addWord (h : SameLines a b) (settings : Settings) (word : Text) (glue : Bool) :
    SameLines (a.addWord settings word glue) (b.addWord settings word glue) where
  outline := by rw [outline_addWord a, outline_addWord b, h.outline, h.pendingMark]
  pendingMark := by rw [addWord_pendingMark, addWord_pendingMark]

/-- The same words leave states that lay out the same lines. -/
theorem SameLines.addWords (h : SameLines a b) (settings : Settings) (words : List Text) :
    SameLines (a.addWords settings words) (b.addWords settings words) := by
  induction words generalizing a b with
  | nil => exact h
  | cons word words ih => exact ih (h.addWord settings word false)

/-- Whether the next word is glued is a part of the outline. -/
theorem blind_glue (glue : Bool) : Blind fun flow => { flow with glue } :=
  blind_of_styles (fun _ => rfl) fun _ => rfl

/-- A text is laid out as its words. -/
theorem addText_eq (flow : Flow) (h : Text.words Text.isFlowBlank s = w :: ws) :
    flow.addText settings s =
      { (flow.addWord settings w (flow.glue && !startsBlank s)).addWords settings ws with
        glue := !endsBlank s } := by
  have hne : s.isEmpty = false := by
    cases s with
    | nil => cases h
    | cons => rfl
  rw [addText, hne, h]
  rfl

/-- The same text leaves states that lay out the same lines. -/
theorem SameLines.addText (h : SameLines a b) (settings : Settings) (s : Text) :
    SameLines (a.addText settings s) (b.addText settings s) := by
  cases hwords : Text.words Text.isFlowBlank s with
  | nil => exact h.wordless (wordless_addText hwords)
  | cons w ws =>
    have hglue : a.outline.glue = b.outline.glue := congrArg Flow.glue h.outline
    have hglue : a.glue = b.glue := hglue
    rw [addText_eq a hwords, addText_eq b hwords, ← hglue]
    have hlaid := (h.addWord settings w (a.glue && !startsBlank s)).addWords settings ws
    exact ⟨(blind_glue _).congr hlaid.outline, hlaid.pendingMark⟩

/-- **A token** leads states that lay out the same lines to such states, unless it is a tag of
inline code. -/
theorem SameLines.act (h : SameLines a b) (settings : Settings) (htext : token.takesText = true)
    (hcode : token.isCode = false) : SameLines (a.act settings token) (b.act settings token) := by
  cases hwords : token.hasWords with
  | false => exact h.wordless (wordless_act htext hcode hwords)
  | true =>
    obtain ⟨s, -, rfl, -⟩ := Token.typeMark?_eq_some id hwords
    have hcollect : Wordless settings 0 (collectHeading · s) := wordless_collectHeading s
    exact (h.wordless hcollect).addText settings s

/-- The same actions leave states that lay out the same lines, where no tag of inline code acts. -/
theorem SameLines.actAll (h : SameLines a b) (settings : Settings)
    (htext : ∀ t ∈ tokens, t.takesText = true) (hcode : ∀ t ∈ tokens, t.isCode = false) :
    SameLines (a.actAll settings tokens) (b.actAll settings tokens) := by
  induction tokens generalizing a b with
  | nil => exact h
  | cons token tokens ih =>
    obtain ⟨htoken, htext⟩ := List.forall_mem_cons.1 htext
    obtain ⟨htag, hcode⟩ := List.forall_mem_cons.1 hcode
    exact ih (h.act settings htoken htag) htext hcode

/-! ## (2) The mark before a word -/

/-- **A mark that is waiting** could have been typed before the first word. -/
theorem addText_markStart (hmark : flow.pendingMark = ['\x60'])
    (hs : Text.words Text.isFlowBlank s ≠ []) :
    flow.addText settings s = flow.unmarked.addText settings (Text.markStart s) := by
  obtain ⟨w, ws, hwords⟩ := List.exists_cons_of_ne_nil hs
  obtain ⟨hstart, hend⟩ := Text.markStart_blank hs
  have hword : ∀ glue, flow.addWord settings w glue =
      flow.unmarked.addWord settings ('\x60' :: w) glue := by
    intro glue
    rw [addWord, addWord, hmark]
    rfl
  rw [addText_eq flow hwords, addText_eq _ (Text.words_markStart hwords), hstart, hend, hword]
  rfl

/-! ## (3) The mark behind a word -/

/-- The outline of a state whose last word, behind others on its line, moved to the next line. -/
theorem outline_moveWord {last word : Text} {c : Char}
    (hcurrent : flow.current = last ++ ' ' :: word) (hstart : flow.wordStart = last.length + 1)
    (hc : last.getLast? = some c) (hblank : Text.isFlowBlank c = false) :
    flow.moveWord.outline = ((startWord { commit { flow with current := last } with
      current := flow.continuation }).place word).outline := by
  have hlast : Text.trimRight Text.isSpace (flow.current.take flow.wordStart) = last := by
    rw [hcurrent, hstart, Text.take_append_space, Text.trimRight_append_space hc hblank]
  have hword : flow.current.drop flow.wordStart = word := by
    rw [hcurrent, hstart, Text.drop_append_space]
  unfold moveWord broken
  rw [hlast, hword]
  rfl

/-- A mark behind a word that was placed could have been placed with it. -/
theorem outline_place_mark (flow : Flow) (word : Text) :
    (flow.place word).atCodeEnd.outline = (flow.place (word ++ ['\x60'])).outline := by
  have hline : flow.current ++ word ++ ['\x60'] = flow.current ++ (word ++ ['\x60']) :=
    List.append_assoc ..
  have hmark : (flow.place word).atCodeEnd.outline =
    { (flow.place word).outline with current := flow.current ++ word ++ ['\x60'] } := rfl
  rw [hmark, hline]
  rfl

/-- A mark put behind a word that was placed leaves the lines of the word that ends in the mark. -/
theorem codeEnd_place (flow : Flow) (word : Text) :
    ((flow.place word).codeEnd settings).outline =
      ((flow.place (word ++ ['\x60'])).fitWord settings).outline :=
  (blind_fitWord settings).congr (outline_place_mark flow word)

/-- **The mark behind a fresh word** makes it start the next line if the line has room for the word,
and none for the mark. -/
theorem outline_makeRoom_mark (hold : flow.hasWords = true → flow.HoldsWord) (word : Text) :
    (((flow.makeRoom settings word).startWord.place word).codeEnd settings).outline =
      ((flow.makeRoom settings (word ++ ['\x60'])).startWord.place (word ++ ['\x60'])).outline := by
  have hmarked : Text.width (word ++ ['\x60']) = Text.width word + 1 := Text.width_append ..
  rw [codeEnd_place]
  by_cases hw : flow.hasWords = true
  · obtain ⟨c, hc, hblank⟩ := (hold hw).getLast
    have hseparator : flow.separator = [' '] := separator_of_letter hc hblank
    by_cases hfits : (Text.width flow.current + flow.separator.length +
        Text.width (word ++ ['\x60']) : Int) ≤ settings.maxWidth
    · -- There is room for the word with its mark.
      rw [makeRoom_stay (.inl hfits), makeRoom_stay (.inl (by push_cast [hmarked] at hfits; omega)),
        fitWord_stay]
      show (Text.width (flow.current ++ flow.separator ++ (word ++ ['\x60'])) : Int) ≤ _
      rw [Text.width_append, Text.width_append, hseparator]
      rw [hseparator] at hfits
      exact_mod_cast hfits
    · rw [makeRoom_wrap (not_le.1 hfits) hw]
      by_cases hroom : (Text.width flow.current + flow.separator.length + Text.width word : Int) ≤
          settings.maxWidth
      · -- The word stands behind the others until the mark makes it move.
        have hline : flow.current ++ flow.separator ++ (word ++ ['\x60']) =
            flow.current ++ ' ' :: (word ++ ['\x60']) := by
          rw [hseparator, List.append_assoc, List.singleton_append]
        rw [makeRoom_stay (.inl hroom), fitWord_move ?_ hw, outline_moveWord hline ?_ hc hblank]
        · rfl
        · show (flow.current ++ flow.separator).length = _
          rw [hseparator, List.length_append]
          rfl
        · show settings.maxWidth <
            (Text.width (flow.current ++ flow.separator ++ (word ++ ['\x60'])) : Int)
          rw [hline, Text.width_append_space]
          rw [hseparator] at hfits
          exact_mod_cast not_le.1 hfits
      · -- The word starts the next line in any case.
        rw [makeRoom_wrap (not_le.1 hroom) hw, fitWord_alone rfl]
  · -- The word is the first one of its line.
    have hw : flow.hasWords = false := by simpa using hw
    rw [makeRoom_stay (.inr hw), makeRoom_stay (.inr hw), fitWord_alone hw]

/-- **The mark behind a piece of a word** moves along with the word, which moves once at most. -/
theorem outline_fitWord_mark (hstart : flow.wordStart ≤ flow.current.length) (word : Text) :
    (((flow.place word).fitWord settings).codeEnd settings).outline =
      ((flow.place (word ++ ['\x60'])).fitWord settings).outline := by
  by_cases hfits : ((Text.width (flow.place word).current : Int) ≤ settings.maxWidth ||
      !(flow.place word).wordMovable) = true
  · rw [fitWord_eq (flow.place word), if_pos hfits, codeEnd_place]
  · have hwide : settings.maxWidth < (Text.width (flow.place word).current : Int) ∧
        flow.wordMovable = true := by simpa [place] using hfits
    have hmarked : settings.maxWidth <
        (Text.width (flow.place (word ++ ['\x60'])).current : Int) := by
      have hline : Text.width (flow.place (word ++ ['\x60'])).current =
          Text.width (flow.place word).current + 1 :=
        (congrArg Text.width (List.append_assoc ..).symm).trans (Text.width_append ..)
      omega
    -- The word moves without the mark and with it, and alone on its line it moves no more.
    rw [fitWord_move hwide.1 hwide.2, fitWord_move hmarked hwide.2, codeEnd, fitWord_alone rfl]
    have hbefore : ∀ t, (flow.current ++ t).take flow.wordStart =
        flow.current.take flow.wordStart := fun t => List.take_append_of_le_length hstart
    have hbehind : ∀ t, (flow.current ++ t).drop flow.wordStart =
        flow.current.drop flow.wordStart ++ t := fun t => List.drop_append_of_le_length hstart
    have hmoved : ∀ t, (flow.place t).moveWord.outline =
        ((startWord { commit { flow with
            current := Text.trimRight Text.isSpace (flow.current.take flow.wordStart) } with
          current := flow.continuation }).place
            (flow.current.drop flow.wordStart ++ t)).outline := by
      intro t
      rw [← hbefore t, ← hbehind t]
      rfl
    have hmark : Blind atCodeEnd := blind_of_styles (fun _ => rfl) fun _ => rfl
    rw [hmark.congr (hmoved word), outline_place_mark, hmoved, List.append_assoc]

/-- **A mark put behind a word** that was laid out could have been typed there. -/
theorem outline_addWord_mark (h : flow.Begun settings) (word : Text) (glue : Bool) :
    (flow.addWord settings (word ++ ['\x60']) glue).outline =
      ((flow.addWord settings word glue).codeEnd settings).outline := by
  have hold : flow.hasWords = true → flow.HoldsWord := fun hw => (h.word hw).2
  -- A piece of a word is placed and moves along with it, and a fresh word makes room first.
  by_cases hglue : (glue && flow.hasWords) = true
  · obtain ⟨rfl, hw⟩ := Bool.and_eq_true_iff.1 hglue
    have hstart : flow.unmarked.wordStart ≤ flow.unmarked.current.length :=
      Nat.le_of_lt (hold hw).wordStart_lt
    rw [addWord_glued hw, addWord_glued hw, outline_fitWord_mark hstart, List.append_assoc]
  · have hglue : (glue && flow.hasWords) = false := by simpa using hglue
    rw [addWord_fresh hglue, addWord_fresh hglue, outline_makeRoom_mark, List.append_assoc]
    exact holdsWord_beginLine hold

/-- The last word of a text, and the state in which it is laid out. -/
theorem exists_lastWord (h : flow.Begun settings) (hpre : flow.context.inPre = false)
    (hwords : Text.words Text.isFlowBlank s = ws ++ [w]) : ∃ (start : Flow) (glue : Bool),
      start.Begun settings ∧ ∀ t v, Text.words Text.isFlowBlank t = ws ++ [v] →
        startsBlank t = startsBlank s →
          flow.addText settings t =
            { start.addWord settings v glue with glue := !endsBlank t } := by
  cases ws with
  | nil =>
    refine ⟨flow, flow.glue && !startsBlank s, h, fun t v ht hblank => ?_⟩
    rw [addText_eq flow ht, hblank]
    rfl
  | cons u us =>
    have hmem : ∀ v ∈ u :: us, v ≠ [] ∧ ∀ c ∈ v, Text.isFlowBlank c = false := by
      intro v hv
      have hv : v ∈ Text.words Text.isFlowBlank s := hwords ▸ List.mem_append_left _ hv
      exact ⟨Text.ne_nil_of_mem_words hv, fun c hc => Text.letter_of_mem_words hv hc⟩
    obtain ⟨⟨hne, hletters⟩, hothers⟩ := List.forall_mem_cons.1 hmem
    have hfirst : (flow.addWord settings u (flow.glue && !startsBlank s)).Begun settings :=
      h.change (.word flow hpre u hne hletters _)
    -- The words before the last one are laid out alike, whatever the last one is.
    refine ⟨(flow.addWord settings u (flow.glue && !startsBlank s)).addWords settings us, false,
      ?_, fun t v ht hblank => ?_⟩
    · refine hfirst.changes (addWords_changes us (fun v hv => (hothers v hv).1)
        (fun v hv => (hothers v hv).2) ?_)
      rw [addWord_context]
      exact hpre
    · have hlast : ∀ a : Flow, a.addWords settings (us ++ [v]) =
          (a.addWords settings us).addWord settings v := fun a => List.foldl_append
      rw [addText_eq flow ht, hblank]
      exact congrArg (fun a : Flow => { a with glue := !endsBlank t }) (hlast _)

/-- **A mark put behind the last word of a text** could have been typed there. -/
theorem outline_addText_markEnd (h : flow.Begun settings) (hpre : flow.context.inPre = false)
    (hs : Text.words Text.isFlowBlank s ≠ []) :
    (flow.addText settings (Text.markEnd s)).outline =
      ((flow.addText settings s).codeEnd settings).outline := by
  obtain ⟨ws, w, hwords⟩ := (List.eq_nil_or_concat _).resolve_left hs
  rw [List.concat_eq_append] at hwords
  obtain ⟨hstart, hend⟩ := Text.markEnd_blank hs
  obtain ⟨start, glue, hbegun, hlast⟩ := exists_lastWord h hpre hwords
  rw [hlast _ _ (Text.words_markEnd hwords) hstart, hlast s w hwords rfl, hend]
  have hmark := outline_addWord_mark hbegun w glue
  exact ((blind_glue _).congr hmark).trans (codeEnd_with settings _ id fun _ => !endsBlank s)

/-! ## (4) One element of inline code -/

/-- Elements of inline code are counted by their tags alone. -/
theorem codeDepth_act (flow : Flow) (settings : Settings) (htext : token.takesText = true)
    (hcode : token.isCode = false) : (flow.act settings token).codeDepth = flow.codeDepth := by
  cases hwords : token.hasWords with
  | false => exact (wordless_act htext hcode hwords).codeDepth flow
  | true =>
    obtain ⟨s, -, rfl, -⟩ := Token.typeMark?_eq_some id hwords
    have hcollect : (flow.collectHeading s).codeDepth = flow.codeDepth :=
      (@wordless_collectHeading settings s).codeDepth flow
    refine addText_preserves (P := fun a : Flow => a.codeDepth = flow.codeDepth) s (fun _ => id)
      (fun {a w} glue _ _ _ ha => ?_) hcollect
    exact (congrArg Control.codeDepth (addWord_control a w glue)).trans ha

/-- After a text with words no mark is waiting. -/
theorem addText_pendingMark (flow : Flow) (hs : Text.words Text.isFlowBlank s ≠ []) :
    (flow.addText settings s).pendingMark = [] := by
  obtain ⟨w, ws, hwords⟩ := List.exists_cons_of_ne_nil hs
  have hrest : ∀ (words : List Text) (a : Flow), a.pendingMark = [] →
      (a.addWords settings words).pendingMark = [] := by
    intro words
    induction words with
    | nil => exact fun _ ha => ha
    | cons v words ih => exact fun a _ => ih _ (addWord_pendingMark a v false)
  rw [addText_eq flow hwords]
  exact hrest ws _ (addWord_pendingMark _ _ _)

/-- **The first word after a mark that is waiting.** The tokens lay out the lines that they lay out
with a mark before their first word, if none is waiting. -/
theorem sameLines_markFirst (settings : Settings) (houtline : a.outline = b.outline)
    (ha : a.pendingMark = ['\x60']) (hb : b.pendingMark = [])
    (htext : ∀ t ∈ tokens, t.takesText = true)
    (hcode : ∀ t ∈ tokens, t.isCode = false) (hwords : ∃ t ∈ tokens, t.hasWords = true) :
    SameLines (a.actAll settings tokens) (b.actAll settings (Token.markFirst tokens)) := by
  obtain ⟨before, s, after, rfl, hbefore, hs, hmark⟩ := Token.exists_markFirst hwords
  rw [hmark, actAll_append, actAll_append, actAll_cons, actAll_cons]
  simp only [List.forall_mem_append, List.forall_mem_cons] at htext hcode
  have hlead : Wordless settings _ (actAll · settings before) :=
    wordless_actAll htext.1 hcode.1 hbefore
  have hcollect : ∀ t, Wordless settings 0 (collectHeading · t) := wordless_collectHeading
  -- Up to the first text with words the mark is the only difference, and behind it there is none.
  refine SameLines.actAll ?_ settings htext.2.2 hcode.2.2
  have hstart : ((a.actAll settings before).collectHeading s).addText settings s =
      ((a.actAll settings before).collectHeading s).unmarked.addText settings
        (Text.markStart s) := by
    refine addText_markStart ?_ hs
    rw [(hcollect s).pendingMark, hlead.pendingMark, ha]
  have hsame : SameLines ((a.actAll settings before).collectHeading s).unmarked
      ((b.actAll settings before).collectHeading (Text.markStart s)) := by
    refine ⟨?_, ?_⟩
    · show ((a.actAll settings before).collectHeading s).outline = _
      rw [outline_collectHeading, outline_collectHeading]
      exact hlead.blind.congr houtline
    · rw [(hcollect _).pendingMark, hlead.pendingMark, hb]
      rfl
  rw [act, act, hstart]
  exact hsame.addText settings _

/-- **The last word before the end of inline code.** If it is still on its line, a mark put behind
it could have been typed there. -/
theorem outline_markLast (h : flow.TakesText) (hbegun : flow.Begun settings)
    (htext : ∀ t ∈ tokens, t.takesText = true) (hcode : ∀ t ∈ tokens, t.isCode = false)
    (hwords : ∃ t ∈ tokens, t.hasWords = true) :
    (flow.actAll settings tokens).pendingMark = [] ∧
      (flow.actAll settings (Token.markLast tokens)).pendingMark = [] ∧
      ((flow.actAll settings tokens).hasWords = true →
        (flow.actAll settings (Token.markLast tokens)).outline =
          ((flow.actAll settings tokens).codeEnd settings).outline) := by
  obtain ⟨before, s, after, rfl, hafter, hs, hmark⟩ := Token.exists_markLast hwords
  rw [hmark, actAll_append, actAll_append, actAll_cons, actAll_cons]
  simp only [List.forall_mem_append, List.forall_mem_cons] at htext hcode
  -- Nothing behind the last text with words lays out a word, so the mark can be moved over it.
  have htail : Wordless settings _ (actAll · settings after) :=
    wordless_actAll htext.2.2 hcode.2.2 hafter
  have hmarked : Text.words Text.isFlowBlank (Text.markEnd s) ≠ [] := by
    obtain ⟨ws, w, hlast⟩ := (List.eq_nil_or_concat _).resolve_left hs
    rw [Text.words_markEnd (hlast.trans List.concat_eq_append)]
    simp
  obtain ⟨htakes, hbegun⟩ := h.actAll hbegun htext.1
  refine ⟨?_, ?_, fun hw => ?_⟩
  · rw [htail.pendingMark]
    exact addText_pendingMark _ hs
  · rw [htail.pendingMark]
    exact addText_pendingMark _ hmarked
  · generalize flow.actAll settings before = reached at htakes hbegun hw ⊢
    have hcollect : ∀ t, Wordless settings 0 (collectHeading · t) := wordless_collectHeading
    have hsame : SameLines (reached.collectHeading (Text.markEnd s)) (reached.collectHeading s) :=
      ⟨(outline_collectHeading reached _).trans (outline_collectHeading reached s).symm,
        ((hcollect _).pendingMark reached).trans ((hcollect s).pendingMark reached).symm⟩
    have hstart : (reached.collectHeading s).Begun settings :=
      hbegun.changes ((hcollect s).changes reached)
    have hpre : (reached.collectHeading s).context.inPre = false :=
      (collectHeading_inPre reached s).trans htakes.inPre
    have hlast : (reached.act settings (.text (Text.markEnd s))).outline =
        ((reached.act settings (.text s)).codeEnd settings).outline :=
      (hsame.addText settings _).outline.trans (outline_addText_markEnd hstart hpre hs)
    have hend := htail.codeEnd _ (hbegun.changes (act_changes htakes (.text s))) hw
    exact (htail.blind.congr hlast).trans hend.2

/-- An element of inline code begins with a mark that waits for a word, and is otherwise like any
element within a line. -/
theorem act_opening_code (settings : Settings) (attributes : List Attribute) (h : flow.TakesText)
    (hname : TagRole.ofName name = .code) :
    let opened := flow.act settings (.opening name attributes)
    let phrase := flow.act settings (.opening "span".toList attributes)
    opened.outline = phrase.outline ∧ opened.pendingMark = ['\x60'] ∧
      phrase.pendingMark = flow.pendingMark ∧ opened.codeDepth = flow.codeDepth + 1 := by
  intro opened phrase
  have hblock : flow.openBlock settings .code =
      { flow with codeDepth := flow.codeDepth + 1, pendingMark := ['\x60'] } := by
    simp [openBlock, h.inPre]
  have henter : ∀ name, Wordless settings 0 (enterElement · settings name attributes) :=
    fun name => wordless_enterElement name attributes
  have hopened : opened = enterElement
      { flow with codeDepth := flow.codeDepth + 1, pendingMark := ['\x60'] } settings name
        attributes := by
    rw [← hblock, ← hname]
    rfl
  rw [hopened]
  refine ⟨?_, (henter name).pendingMark _, (henter "span".toList).pendingMark flow,
    (henter name).codeDepth _⟩
  have hsame : outline { flow with codeDepth := flow.codeDepth + 1, pendingMark := ['\x60'] } =
      flow.outline := rfl
  exact ((henter name).blind.congr hsame).trans (enterElement_outline flow _ _ attributes)

/-- **The end of inline code with words.** The mark before the first word is used up, and if the
last word is still on its line it gets one behind it. -/
theorem sameLines_closeCode {opened phrase : Flow} (htakes : phrase.TakesText)
    (hbegun : phrase.Begun settings) (houtline : opened.outline = phrase.outline)
    (hopened : opened.pendingMark = ['\x60']) (hphrase : phrase.pendingMark = [])
    (htext : ∀ t ∈ inner, t.takesText = true) (hcode : ∀ t ∈ inner, t.isCode = false)
    (hwords : ∃ t ∈ inner, t.hasWords = true) (hdepth : a.codeDepth ≠ 0)
    (hsame : SameLines a (opened.actAll settings inner))
    (hend : a.hasWords = true ∨ a.pendingMark ≠ []) :
    SameLines (a.closeCode settings) (phrase.actAll settings (Token.markWords inner)) := by
  -- The mark before the first word is placed already, so only the one behind the last is missing.
  have hfirst := hsame.trans
    (sameLines_markFirst settings houtline hopened hphrase htext hcode hwords)
  have hmarked : ∃ t ∈ Token.markFirst inner, t.hasWords = true := by
    simpa [← List.any_eq_true, Token.any_hasWords_markFirst] using hwords
  obtain ⟨hnone, hnone', hlast⟩ := outline_markLast htakes hbegun
    (Token.forall_markFirst (fun _ _ => rfl) htext)
    (Token.forall_markFirst (fun _ _ => rfl) hcode) hmarked
  have ha : a.pendingMark = [] := hfirst.pendingMark.trans hnone
  have hw : a.hasWords = true := hend.resolve_right fun hne => hne ha
  have hw' : (phrase.actAll settings (Token.markFirst inner)).outline.hasWords = true := by
    rw [← hfirst.outline]
    exact hw
  -- The element is open, no mark waits and there is a word, so the end puts its mark there.
  rw [closeCode_eq, if_neg hdepth, if_neg (by simp [ha]), if_pos hw]
  refine ⟨?_, ?_⟩
  · have hleave : a.leaveCode.outline = a.outline := rfl
    exact ((blind_codeEnd settings).congr (hleave.trans hfirst.outline)).trans (hlast hw').symm
  · have hword : a.leaveCode.atCodeEnd.hasWords = true := hw
    have hcontrol : a.leaveCode.atCodeEnd.pendingMark = [] := ha
    exact ((congrArg Control.pendingMark (fitWord_control hword)).trans hcontrol).trans hnone'.symm

/-- The end of inline code without words takes the mark back that was waiting for one. -/
theorem sameLines_closeCode_of_wordless {opened phrase : Flow}
    (houtline : opened.outline = phrase.outline) (hopened : opened.pendingMark = ['\x60'])
    (hphrase : phrase.pendingMark = []) (htext : ∀ t ∈ inner, t.takesText = true)
    (hcode : ∀ t ∈ inner, t.isCode = false) (hnone : ∀ t ∈ inner, t.hasWords = false)
    (hdepth : a.codeDepth ≠ 0) (hsame : SameLines a (opened.actAll settings inner)) :
    SameLines (a.closeCode settings) (phrase.actAll settings (Token.markWords inner)) := by
  have hrun : Wordless settings _ (actAll · settings inner) := wordless_actAll htext hcode hnone
  have ha : a.pendingMark = ['\x60'] := by
    rw [hsame.pendingMark, hrun.pendingMark, hopened]
  have hend : (phrase.actAll settings inner).pendingMark = [] := by
    rw [hrun.pendingMark, hphrase]
  rw [closeCode_eq, if_neg hdepth, if_pos (by simp [ha]), Token.markWords,
    Token.markFirst_of_wordless hnone, Token.markLast_of_wordless hnone]
  exact ⟨hsame.outline.trans (hrun.blind.congr houtline), hend.symm⟩

/-- **An element of inline code** lays out the lines of its text with marks, if no mark is waiting
where it starts, and where it ends its last word is still on its line or it has none. The elements
inside it are laid out already. -/
theorem sameLines_code (h : flow.TakesText) (hbegun : flow.Begun settings)
    (hmark : flow.pendingMark = []) (hname : TagRole.ofName name = .code)
    (htext : ∀ t ∈ inner, t.takesText = true) (hcode : ∀ t ∈ inner, t.isCode = false)
    (hpre : a.context.inPre = false) (hdepth : a.codeDepth ≠ 0)
    (hsame : SameLines a ((flow.act settings (.opening name attributes)).actAll settings inner))
    (hend : a.hasWords = true ∨ a.pendingMark ≠ []) :
    SameLines (a.act settings (.closing name)) (flow.actAll settings
      (.opening "span".toList attributes ::
        (Token.markWords inner ++ [.closing "span".toList]))) := by
  obtain ⟨houtline, hopened, hphrase, -⟩ := act_opening_code settings attributes h hname
  have hphrase := hphrase.trans hmark
  have htakes : (flow.act settings (.opening "span".toList attributes)).TakesText := h.act rfl
  have hstarts := hbegun.changes (act_changes h (.opening "span".toList attributes))
  have hclose : a.act settings (.closing name) = (a.closeCode settings).dropElement := by
    rw [act, hname, closeBlock, hpre]
    rfl
  have hspan : ∀ b : Flow, b.actAll settings [.closing "span".toList] = b.dropElement :=
    fun _ => rfl
  have hdrop : Wordless settings 0 dropElement := wordless_dropElement
  rw [actAll_cons, actAll_append, hclose, hspan]
  refine SameLines.wordless hdrop ?_
  by_cases hwords : ∃ t ∈ inner, t.hasWords = true
  · exact sameLines_closeCode htakes hstarts houtline hopened hphrase htext hcode hwords hdepth
      hsame hend
  · exact sameLines_closeCode_of_wordless houtline hopened hphrase htext hcode
      (by simpa using hwords) hdepth hsame

/-! ## (5) All elements of inline code -/

/-- Whether the marks of inline code can be put at a tag: no mark is waiting where an element
starts, and where it ends its last word is still on its line, or it has none. -/
def marksCode (flow : Flow) : Token → Bool
  | .opening name _ => TagRole.ofName name != .code || flow.pendingMark.isEmpty
  | .closing name => TagRole.ofName name != .code || flow.hasWords || !flow.pendingMark.isEmpty
  | _ => true

/-- Whether they can be put at all tags of a run that takes the given steps. -/
def marksCodeAll (step : Flow → Token → Flow) : Flow → List Token → Bool
  | _, [] => true
  | flow, token :: tokens => flow.marksCode token && marksCodeAll step (step flow token) tokens

/-- The marks can be put in a run just if they can in its first part and then in its second one. -/
theorem marksCodeAll_append (step : Flow → Token → Flow) (flow : Flow) (tokens more : List Token) :
    marksCodeAll step flow (tokens ++ more) =
      (marksCodeAll step flow tokens && marksCodeAll step (tokens.foldl step flow) more) := by
  induction tokens generalizing flow with
  | nil => rfl
  | cons token tokens ih =>
    rw [List.cons_append, marksCodeAll, marksCodeAll, ih, Bool.and_assoc, List.foldl_cons]

/-- The end of inline code counts one element less. -/
theorem act_closing_code (flow : Flow) (hname : TagRole.ofName name = .code)
    (hpre : flow.context.inPre = false) :
    (flow.act settings (.closing name)).codeDepth = flow.codeDepth - 1 := by
  have hfit : (flow.leaveCode.atCodeEnd.fitWord settings).codeDepth = flow.codeDepth - 1 := by
    rw [fitWord_eq]
    split <;> rfl
  have hclose : (flow.closeBlock settings .code).codeDepth = flow.codeDepth - 1 := by
    have hblock : flow.closeBlock settings .code = flow.closeCode settings := by
      rw [closeBlock, hpre]
      rfl
    rw [hblock, closeCode_eq]
    split_ifs with hzero
    · rw [hzero]
    · rfl
    · exact hfit
    · rfl
  rw [act, hname, (@wordless_dropElement settings).codeDepth, hclose]

/-- Whether tokens lay out the lines of other ones, wherever the marks of inline code can be put,
and leave as many elements of inline code open as before. -/
def LaysOut (settings : Settings) (tokens marked : List Token) : Prop :=
  ∀ ⦃a b : Flow⦄, a.TakesText → a.Begun settings →
    marksCodeAll (·.act settings ·) a tokens = true → SameLines a b →
      SameLines (a.actAll settings tokens) (b.actAll settings marked) ∧
        (a.actAll settings tokens).codeDepth = a.codeDepth

/-- A token lays out its own lines, unless it is a tag of inline code. -/
theorem laysOut_token (htext : token.takesText = true) (hcode : token.isCode = false) :
    LaysOut settings [token] [token] := fun a _ _ _ _ hsame =>
  ⟨hsame.act settings htext hcode, codeDepth_act a settings htext hcode⟩

/-- Runs that lay out the same lines do so one behind the other. -/
theorem LaysOut.append {more markedMore : List Token} (h : LaysOut settings tokens marked)
    (hmore : LaysOut settings more markedMore) (htext : ∀ t ∈ tokens, t.takesText = true) :
    LaysOut settings (tokens ++ more) (marked ++ markedMore) := by
  intro a b ha hbegun hmarks hsame
  rw [marksCodeAll_append, Bool.and_eq_true] at hmarks
  obtain ⟨hfirst, hdepth⟩ := h ha hbegun hmarks.1 hsame
  obtain ⟨htakes, hreached⟩ := ha.actAll hbegun htext
  obtain ⟨hall, hdepth'⟩ := hmore htakes hreached hmarks.2 hfirst
  rw [actAll_append, actAll_append]
  exact ⟨hall, hdepth'.trans hdepth⟩

/-- **Inline code** lays out the lines of its text with marks, if what stands inside it lays out the
lines of its own text with marks. -/
theorem LaysOut.code (attributes : List Attribute) (h : LaysOut settings content inner)
    (hname : TagRole.ofName name = .code)
    (hcontent : ∀ t ∈ content, t.takesText = true) (htext : ∀ t ∈ inner, t.takesText = true)
    (hcode : ∀ t ∈ inner, t.isCode = false) :
    LaysOut settings (.opening name attributes :: (content ++ [.closing name]))
      (.opening "span".toList attributes ::
        (Token.markWords inner ++ [.closing "span".toList])) := by
  intro a b ha hbegun hmarks hsame
  have htag : (Token.opening name attributes).takesText = true := by
    rw [Token.takesText, hname]
    rfl
  rw [marksCodeAll, marksCodeAll_append, Bool.and_eq_true, Bool.and_eq_true] at hmarks
  obtain ⟨htag', hinside, hclosing⟩ := hmarks
  rw [marksCodeAll, Bool.and_eq_true] at hclosing
  have hmark : a.pendingMark = [] := by simpa [marksCode, hname] using htag'
  -- The elements inside are laid out in the state behind the opening tag, in which a mark waits.
  have hopening : (a.act settings (.opening name attributes)).TakesText := ha.act htag
  have hstarts := hbegun.changes (act_changes ha (.opening name attributes))
  obtain ⟨hopened, hdepth⟩ := h hopening hstarts hinside (sameLines_refl _)
  rw [(act_opening_code settings attributes ha hname).2.2.2] at hdepth
  obtain ⟨htakes, -⟩ := hopening.actAll hstarts hcontent
  have hend :
      ((a.act settings (.opening name attributes)).actAll settings content).hasWords = true ∨
        ((a.act settings (.opening name attributes)).actAll settings content).pendingMark ≠ [] := by
    have hend := hclosing.1
    rw [← actAll] at hend
    simpa [marksCode, hname] using hend
  have hlaid :=
    sameLines_code ha hbegun hmark hname htext hcode htakes.inPre (by omega) hopened hend
  rw [actAll_cons, actAll_append, actAll_cons, actAll_nil]
  refine ⟨hlaid.trans (hsame.actAll settings ?_ ?_), ?_⟩
  · simp only [List.forall_mem_cons, List.forall_mem_append]
    exact ⟨rfl, Token.forall_markWords (fun _ _ => rfl) htext, rfl, by simp⟩
  · simp only [List.forall_mem_cons, List.forall_mem_append]
    exact ⟨rfl, Token.forall_markWords (fun _ _ => rfl) hcode, rfl, by simp⟩
  · rw [act_closing_code _ hname htakes.inPre, hdepth, Nat.add_sub_cancel]

/-- **Tokens lay out the lines of their texts with marks,** wherever the marks of inline code can be
put. -/
theorem laysOut_codeMarked (h : Token.CodeMarked tokens n marked)
    (htext : ∀ t ∈ tokens, t.takesText = true) : LaysOut settings tokens marked := by
  induction h with
  | nil => exact fun a b _ _ _ hsame => ⟨hsame, rfl⟩
  | text s _ ih =>
    obtain ⟨htoken, htext⟩ := List.forall_mem_cons.1 htext
    exact (laysOut_token htoken rfl).append (ih htext) (by simpa using htoken)
  | empty name attributes _ ih =>
    obtain ⟨htoken, htext⟩ := List.forall_mem_cons.1 htext
    exact (laysOut_token htoken rfl).append (ih htext) (by simpa using htoken)
  -- The tags of other elements are the same in both token lists.
  | @element name attributes hname content inner tokens marked k n _ _ ihInner ihRest =>
    simp only [List.forall_mem_cons, List.forall_mem_append] at htext
    obtain ⟨hopening, hcontent, hclosing, htokens⟩ := htext
    have htag : (TagRole.ofName name == .code) = false := by simpa using hname
    have hrest : LaysOut settings (.closing name :: tokens) (.closing name :: marked) :=
      (laysOut_token hclosing htag).append (ihRest htokens) (by simpa using hclosing)
    have helement := (ihInner hcontent).append hrest hcontent
    exact (laysOut_token hopening htag).append helement (by simpa using hopening)
  -- The marks of an element of code stand around the words of its content.
  | @code name attributes hname content inner tokens marked k n hinner _ ihInner ihRest =>
    simp only [List.forall_mem_cons, List.forall_mem_append] at htext
    obtain ⟨hopening, hcontent, hclosing, htokens⟩ := htext
    have helement := (ihInner hcontent).code attributes hname hcontent
      (hinner.takesText hcontent) hinner.isCode
    have hall := helement.append (ihRest htokens) (by
      simp only [List.forall_mem_cons, List.forall_mem_append]
      exact ⟨hopening, hcontent, hclosing, by simp⟩)
    simpa using hall

end Flow

end ChapterLayout
