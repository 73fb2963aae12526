import ChapterLayout.Proofs.Flow.Nesting
import ChapterLayout.Proofs.Flow.Plain

/-! # Preformatted text as it stands

The lines of a preformatted block are those of its text, however the text is cut into pieces by tags
within a line. Whether a line is open, whether the block is fresh and what the open line holds are
kept apart in the state; `Flow.PreWritten` ties them to the text that was seen so far:

* **`Text.preLines`** — the lines of a preformatted text;
* **`Flow.PreWritten`** — lines that are ended, and the start of the one that is open;
* **`PreWritten.addPre`** — one more text continues the open line with its first piece;
* **`PreText.feed`** — so does a token, and tags within a line write nothing;
* **`Flow.feedAll_pre`** — the lines of a whole block. -/

namespace ChapterLayout

namespace Text

variable {s t last : Text} {above : List Text}

/-- The text without a line feed at its start. -/
def afterBreak : Text → Text
  | '\n' :: s => s
  | s => s

/-- The lines of a preformatted text: what its line feeds separate, without the line feed that it
starts with and without an empty last line. -/
def preLines (s : Text) : List Text :=
  let lines := splitOn '\n' (afterBreak s)
  if lines.getLast? = some [] then lines.dropLast else lines

/-- The lines of a text are what its line feeds separate, but for an empty last one. -/
theorem preLines_eq (h : splitOn '\n' (afterBreak s) = above ++ [last]) :
    preLines s = above ++ if last = [] then [] else [last] := by
  unfold preLines
  rw [h]
  by_cases hlast : last = [] <;> simp [hlast]

/-- The line feed at the start of a text is the one at the start of its first part. -/
theorem afterBreak_append (h : t ≠ []) : afterBreak (t ++ s) = afterBreak t ++ s := by
  cases t with
  | nil => exact absurd rfl h
  | cons c t =>
    by_cases hc : c = '\n'
    · rw [hc]
      rfl
    · simp [afterBreak, hc]

/-- Without carriage returns the line break at the start of a text is a line feed. -/
theorem dropFirstBreak_eq (h : '\r' ∉ s) : Flow.dropFirstBreak s = afterBreak s := by
  unfold Flow.dropFirstBreak
  split
  · exact absurd List.mem_cons_self h
  · rfl
  · rename_i hbreak
    unfold afterBreak
    split
    · exact absurd rfl (hbreak _)
    · rfl

/-- Without its first line feed a text has no more carriage returns than before. -/
theorem not_mem_afterBreak (h : '\r' ∉ s) : '\r' ∉ afterBreak s := by
  unfold afterBreak
  split
  · exact fun hs => h (List.mem_cons_of_mem _ hs)
  · exact h

end Text

namespace Token

/-- Whether an element of the given name stands within a line of preformatted text, where inline
code is an element like any other. -/
def IsPreInlineName (name : Text) : Prop :=
  (TagRole.ofName name = .inline ∨ TagRole.ofName name = .code) ∧ name ≠ "img".toList

instance (name : Text) : Decidable (IsPreInlineName name) := inferInstanceAs (Decidable (_ ∧ _))

/-- Text, and tags of elements within a line of preformatted text none of whose classes opens a
title. -/
def IsPreInline (settings : Settings) : Token → Prop
  | .text _ => True
  | .opening name attributes => IsPreInlineName name ∧ Flow.opensTitle settings attributes = false
  | .closing name => IsPreInlineName name
  | .empty name _ => IsPreInlineName name

instance (settings : Settings) (token : Token) : Decidable (token.IsPreInline settings) :=
  match token with
  | .text _ => inferInstanceAs (Decidable True)
  | .opening _ _ => inferInstanceAs (Decidable (_ ∧ _))
  | .closing name => inferInstanceAs (Decidable (IsPreInlineName name))
  | .empty name _ => inferInstanceAs (Decidable (IsPreInlineName name))

end Token

namespace Flow

variable {settings : Settings} {flow flow' start : Flow} {above qs : List Text}
  {last q s t name : Text}
  {attributes : List Attribute} {lines : List Line} {first : Nat}

/-! ## (1) Lines that are shown as code -/

/-- Whether the lines from an index on are exempt from justification, and all of them but the empty
ones highlighted as code from end to end. -/
def ShowsCode (flow : Flow) (first : Nat) (lines : List Line) : Prop :=
  ∀ (n : Nat) (line : Line), lines[n]? = some line →
    (first : Int) + n ∈ flow.page.noJustify ∧
      (line ≠ [] → ⟨(first : Int) + n, 0, line.length, Group.code⟩ ∈ flow.spans)

/-- Lines are still shown as code when exemptions and highlights are added. -/
theorem ShowsCode.mono (h : flow.ShowsCode first lines)
    (hset : ∀ i ∈ flow.page.noJustify, i ∈ flow'.page.noJustify)
    (hspans : ∀ r ∈ flow.spans, r ∈ flow'.spans) : flow'.ShowsCode first lines :=
  fun n line hline => ⟨hset _ (h n line hline).1, fun hne => hspans _ ((h n line hline).2 hne)⟩

/-- Lines and one more are shown as code if that one is exempt and highlighted from end to end. -/
theorem ShowsCode.concat {line : Line} (h : flow.ShowsCode first lines)
    (hset : (first : Int) + lines.length ∈ flow.page.noJustify)
    (hspan : line ≠ [] →
      ⟨(first : Int) + lines.length, 0, line.length, Group.code⟩ ∈ flow.spans) :
    flow.ShowsCode first (lines ++ [line]) := by
  intro n l hl
  by_cases hn : n < lines.length
  · rw [List.getElem?_append_left hn] at hl
    exact h n l hl
  · obtain rfl : n = lines.length := by
      have hlt := (List.getElem?_eq_some_iff.1 hl).1
      simp at hlt
      omega
    rw [List.getElem?_concat_length] at hl
    obtain rfl := Option.some.inj hl
    exact ⟨hset, hspan⟩

/-- The end of a line keeps the highlights there are. -/
theorem subset_commit_spans (flow : Flow) : ∀ r ∈ flow.spans, r ∈ flow.commit.spans := by
  intro r hr
  unfold commit
  dsimp only
  split
  · exact List.mem_append_left _ hr
  · exact hr

/-- The line that is ended is marked before it is put on the page. -/
theorem preMarked_spec (settings : Settings) (flow : Flow) :
    (flow.preMarked settings).current = flow.preStart settings ∧
      (flow.preMarked settings).page = flow.page ∧
      (flow.preMarked settings).context = flow.context ∧
      (∀ r ∈ flow.spans, r ∈ (flow.preMarked settings).spans) ∧
      (flow.preStart settings ≠ [] →
        ⟨flow.lineIndex, 0, (flow.preStart settings).length, Group.code⟩ ∈
          (flow.preMarked settings).spans) := by
  unfold preMarked
  dsimp only
  split
  · rename_i hnil
    exact ⟨rfl, rfl, rfl, fun r hr => hr, fun hne => absurd (List.isEmpty_iff.1 hnil) hne⟩
  · exact ⟨rfl, rfl, rfl, fun r hr => List.mem_append_left _ hr,
      fun _ => List.mem_append_right _ (List.mem_singleton.2 rfl)⟩

/-- A line of preformatted text is shown as code. -/
theorem ShowsCode.commitPre (h : flow.ShowsCode first lines) (hpre : flow.context.inPre = true)
    (hindex : flow.lineIndex = first + lines.length) :
    (flow.commitPre settings).ShowsCode first (lines ++ [flow.preStart settings]) := by
  obtain ⟨-, hpage, hcontext, hspans, hspan⟩ := preMarked_spec settings flow
  obtain ⟨hset, hexempt⟩ := commit_noJustify (flow.preMarked settings)
  have hmarked := subset_commit_spans (flow.preMarked settings)
  rw [lineIndex, hpage] at hexempt
  rw [hpage] at hset
  have hnumber : (flow.page.lines.length : Int) = (first : Int) + lines.length := by
    rw [lineIndex] at hindex
    omega
  rw [commitPre_eq]
  refine ShowsCode.concat (h.mono hset fun r hr => hmarked r (hspans r hr)) ?_ fun hne => ?_
  · rw [← hnumber]
    exact hexempt (by simp [BlockContext.keepsSpacing, hcontext, hpre])
  · rw [← hnumber]
    exact hmarked _ (hspan hne)

/-! ## (2) Lines that are written -/

/-- A piece of preformatted text keeps the open elements, and a fresh block fresh. -/
theorem addPiece_frame (settings : Settings) (q : Text) (flow : Flow) :
    (flow.addPiece settings q).preFresh = flow.preFresh ∧
      (flow.addPiece settings q).styles = flow.styles := by
  unfold addPiece
  split <;> exact ⟨rfl, rfl⟩

/-- The state after pieces of preformatted text that each begin a line. -/
def addPieces (flow : Flow) (settings : Settings) (pieces : List Text) : Flow :=
  pieces.foldl (fun flow piece => (flow.commitPre settings).addPiece settings piece) flow

/-- Preformatted text is put down piece by piece, the first one on the line that is being filled. -/
theorem addPre_eq (h : flow.prePieces s = q :: qs) :
    flow.addPre settings s =
      (({ flow with preFresh := flow.preFresh && s.isEmpty }).addPiece settings q).addPieces
        settings qs := by
  unfold addPre addPieces
  rw [h]

/-- Pieces of preformatted text leave the open elements and the freshness of the block alone. -/
theorem addPieces_frame (pieces : List Text) (flow : Flow) :
    (flow.addPieces settings pieces).preFresh = flow.preFresh ∧
      (flow.addPieces settings pieces).styles = flow.styles := by
  induction pieces generalizing flow with
  | nil => exact ⟨rfl, rfl⟩
  | cons q pieces ih =>
    obtain ⟨page, spans, hcommit, -⟩ := exists_commitPre_lines settings flow
    obtain ⟨hfresh, hstyles⟩ := ih ((flow.commitPre settings).addPiece settings q)
    have hpiece := addPiece_frame settings q (flow.commitPre settings)
    exact ⟨hfresh.trans (hpiece.1.trans (by rw [hcommit])),
      hstyles.trans (hpiece.2.trans (by rw [hcommit]))⟩

/-- What is laid out of a preformatted text: the lines that are ended, behind those of the start,
and the text of the next one. That line is not open before it has text. -/
structure PreWritten (settings : Settings) (flow start : Flow) (above : List Text) (last : Text) :
    Prop where
  inPre : flow.context.inPre = true
  indent : flow.indent settings = start.indent settings
  lines : flow.page.lines = start.page.lines ++ above.map (start.indent settings ++ ·)
  shown : flow.ShowsCode start.lineIndex (above.map (start.indent settings ++ ·))
  preLineOpen : flow.preLineOpen = !last.isEmpty
  current : flow.current = if last = [] then [] else start.indent settings ++ last

namespace PreWritten

/-- What the next piece is put behind is the indentation and the text of the last line. -/
theorem preStart (h : flow.PreWritten settings start above last) :
    flow.preStart settings = start.indent settings ++ last := by
  unfold Flow.preStart
  rw [h.preLineOpen, h.current, h.indent]
  by_cases hlast : last = [] <;> simp [hlast]

/-- A piece of a line goes on the line that is open. -/
theorem addPiece (h : flow.PreWritten settings start above last) (q : Text) :
    (flow.addPiece settings q).PreWritten settings start above (last ++ q) := by
  by_cases hq : q = []
  · rw [hq, List.append_nil]
    exact h
  · rw [addPiece_of_ne_nil hq]
    refine ⟨h.inPre, h.indent, h.lines, h.shown, ?_, ?_⟩
    · simp [hq]
    · rw [if_neg (List.append_ne_nil_of_right_ne_nil _ hq), h.preStart, List.append_assoc]

/-- A line feed ends the line, also if it has no text. -/
theorem commitPre (h : flow.PreWritten settings start above last) :
    (flow.commitPre settings).PreWritten settings start (above ++ [last]) [] := by
  obtain ⟨page, spans, hcommit, hlines⟩ := exists_commitPre_lines settings flow
  have hshown : (flow.commitPre settings).ShowsCode start.lineIndex
      ((above ++ [last]).map (start.indent settings ++ ·)) := by
    rw [List.map_append, List.map_singleton, ← h.preStart]
    refine h.shown.commitPre h.inPre ?_
    rw [lineIndex, h.lines, List.length_append]
    rfl
  rw [hcommit] at hshown ⊢
  refine ⟨h.inPre, h.indent, ?_, hshown, rfl, rfl⟩
  rw [hlines, h.lines, h.preStart, List.append_assoc, List.map_append, List.map_singleton]

/-- Lines one after the other: all pieces but the last are ended by a line feed. -/
theorem addPieces (pieces : List Text) (h : flow.PreWritten settings start above last) :
    ∃ above' last', above' ++ [last'] = above ++ last :: pieces ∧
      (flow.addPieces settings pieces).PreWritten settings start above' last' := by
  induction pieces generalizing flow above last with
  | nil => exact ⟨above, last, rfl, h⟩
  | cons q pieces ih =>
    obtain ⟨above', last', heq, hwritten⟩ := ih (h.commitPre.addPiece q)
    exact ⟨above', last', by simpa using heq, hwritten⟩

/-- What is laid out of a preformatted text does not depend on whether the block is fresh. -/
theorem setFresh (h : flow.PreWritten settings start above last) (preFresh : Bool) :
    PreWritten settings { flow with preFresh } start above last :=
  ⟨h.inPre, h.indent, h.lines, h.shown, h.preLineOpen, h.current⟩

end PreWritten

/-- Whether the text that a block has seen so far is laid out. -/
structure PreText (settings : Settings) (flow start : Flow) (t : Text) : Prop where
  fresh : flow.preFresh = t.isEmpty
  written : ∃ above last, Text.splitOn '\n' (Text.afterBreak t) = above ++ [last] ∧
    flow.PreWritten settings start above last

/-- The pieces of a text behind the text that the block has seen: only a block without text drops
the line feed that its text starts with. -/
theorem PreText.prePieces (h : flow.PreText settings start t) (hreturn : '\r' ∉ s) :
    flow.prePieces s = Text.splitOn '\n' (if t = [] then Text.afterBreak s else s) := by
  unfold Flow.prePieces
  rw [h.fresh]
  by_cases ht : t = []
  · rw [if_pos (by simp [ht]), if_pos ht, Text.dropFirstBreak_eq hreturn,
      Text.unifyNewlines_of_not_mem (Text.not_mem_afterBreak hreturn)]
  · rw [if_neg (by simp [ht]), if_neg ht, Text.unifyNewlines_of_not_mem hreturn]

/-- **A text goes on** where the text before it ended, wherever the two were cut apart. -/
theorem PreText.addPre (h : flow.PreText settings start t) (hreturn : '\r' ∉ s) :
    (flow.addPre settings s).PreText settings start (t ++ s) := by
  obtain ⟨above, last, hsplit, hwritten⟩ := h.written
  obtain ⟨q, qs, hpieces⟩ := Text.exists_splitOn '\n' (if t = [] then Text.afterBreak s else s)
  have hjoined : Text.splitOn '\n' (Text.afterBreak (t ++ s)) = above ++ (last ++ q) :: qs := by
    by_cases ht : t = []
    · rw [ht] at hsplit ⊢
      rw [if_pos ht] at hpieces
      exact Text.splitOn_append hsplit hpieces
    · rw [if_neg ht] at hpieces
      rw [Text.afterBreak_append ht]
      exact Text.splitOn_append hsplit hpieces
  have hfresh : (flow.preFresh && s.isEmpty) = (t ++ s).isEmpty := by
    rw [h.fresh]
    cases t <;> rfl
  obtain ⟨above', last', heq, hnext⟩ :=
    ((hwritten.setFresh (flow.preFresh && s.isEmpty)).addPiece q).addPieces qs
  rw [addPre_eq ((h.prePieces hreturn).trans hpieces)]
  refine ⟨?_, above', last', hjoined.trans heq.symm, hnext⟩
  rw [(addPieces_frame qs _).1, (addPiece_frame settings q _).1, hfresh]

/-! ## (3) Tokens within the block -/

/-- Text goes to preformatted lines, and no open element but that of the block ends a title. -/
structure TakesPre (flow : Flow) : Prop where
  rawDepth : flow.context.rawDepth = 0
  inHead : flow.context.inHead = false
  inPre : flow.context.inPre = true
  inTable : flow.context.table.inTable = false
  titled : flow.TitleOwned
  owner : ∀ e ∈ flow.styles.elements, flow.context.titleSerial = some e.serial →
    e.name = "pre".toList

/-- The tag of a stacked element acts on the stack outside the head. -/
theorem tracks_of_shown (hhead : flow.context.inHead = false)
    (hstacked : (TagRole.ofName name).isStacked = true) : flow.tracks name = true := by
  simp [tracks, hides, hhead, hstacked]

/-- An opening tag that opens neither a block nor a title puts its element on the stack. -/
theorem openTag_element (h : flow.tracks name = true)
    (hblock : flow.openBlock settings (TagRole.ofName name) = flow)
    (htitle : opensTitle settings attributes = false) :
    ∃ anchors notices, flow.openTag settings name attributes =
      flow.withElements (flow.styles.push name attributes settings.classStyles) anchors
        notices := by
  obtain ⟨anchors, hanchors⟩ := exists_recordAnchor flow attributes
  refine ⟨anchors, flow.notices ++
    (Frame.unmappedClasses attributes settings.classStyles).map .unmappedClass, ?_⟩
  rw [openTag_stacked h, hblock, hanchors, htitle]
  dsimp only
  rw [Bool.and_false]
  rfl

/-- A closing tag that closes neither a block nor a title takes its element from the stack. -/
theorem closeTag_element (h : flow.tracks name = true)
    (hblock : flow.closeBlock settings (TagRole.ofName name) = flow)
    (hother : ∀ e ∈ flow.styles.elements, flow.context.titleSerial = some e.serial →
      e.name ≠ name) :
    ∃ notices, flow.closeTag settings name =
      flow.withElements (flow.styles.after settings (.closing name)) flow.page.anchors notices := by
  rw [closeTag_stacked h, hblock, popElement, Stack.after, Stack.pop?]
  cases hfind : flow.styles.elements.find? (·.name == name) with
  | none => exact ⟨flow.notices ++ [.unmatchedClosing name], rfl⟩
  | some e =>
    have hserial : flow.context.titleSerial ≠ some e.serial := fun htitle =>
      hother e (List.mem_of_find?_eq_some hfind) htitle
        (by simpa using List.find?_some hfind)
    exact ⟨flow.notices, by simp [hserial, withElements]⟩

namespace TakesPre

/-- The tag of an element within the block acts on the stack. -/
theorem tracks (h : flow.TakesPre) (hname : Token.IsPreInlineName name) :
    flow.tracks name = true := by
  rcases hname.1 with hrole | hrole <;>
    simp [Flow.tracks, hides, h.inHead, hrole, TagRole.isStacked]

/-- **Tags within a line of preformatted text.** They change the open elements, the anchors and the
notices only. -/
theorem feed_tag (h : flow.TakesPre) {token : Token} (htoken : token.IsPreInline settings)
    (htag : ∀ s, token ≠ .text s) :
    ∃ anchors notices, flow.feed settings token =
      flow.withElements (flow.styles.after settings token) anchors notices := by
  cases token with
  | text s => exact absurd rfl (htag s)
  | opening name attributes =>
    refine openTag_element (h.tracks htoken.1) ?_ htoken.2
    rcases htoken.1.1 with hrole | hrole <;> rw [hrole]
    · rfl
    · exact if_pos h.inPre
  | closing name =>
    have hpre : name ≠ "pre".toList := by
      rintro rfl
      exact absurd htoken.1 (by decide)
    have hblock : flow.closeBlock settings (TagRole.ofName name) = flow := by
      rcases htoken.1 with hrole | hrole <;> rw [hrole]
      · rfl
      · exact if_pos h.inPre
    obtain ⟨notices, hclose⟩ := closeTag_element (h.tracks htoken) hblock
      fun e he htitle hname => hpre (hname.symm.trans (h.owner e he htitle))
    exact ⟨_, notices, hclose⟩
  | empty name attributes =>
    obtain ⟨anchors, hanchors⟩ := exists_recordAnchor flow attributes
    -- The elements that do something of their own play other roles.
    have hother : ∀ other : Text, ¬(TagRole.ofName other = .inline ∨
        TagRole.ofName other = .code) → (name == other) = false := by
      intro other hrole
      rw [beq_eq_false_iff_ne]
      rintro rfl
      exact hrole htoken.1
    have hbr : (name == "br".toList) = false := hother _ (by decide)
    have hhr : (name == "hr".toList) = false := hother _ (by decide)
    have himg : (name == "img".toList) = false := beq_eq_false_iff_ne.2 htoken.2
    have hline : TagRole.breaksLine name = false := by
      rcases htoken.1 with hrole | hrole <;> simp [TagRole.breaksLine, hrole]
    refine ⟨anchors, flow.notices, ?_⟩
    show flow.emptyTag settings name attributes = _
    simp only [emptyTag, h.inHead, hbr, hhr, himg, hline, Bool.false_eq_true, if_false, hanchors]
    rfl

/-- **Text** is laid out as preformatted. -/
theorem feed_text (h : flow.TakesPre) (s : Text) :
    flow.feed settings (.text s) = (flow.collectHeading s).addPre settings s := by
  show flow.feedText settings s = _
  rw [feedText_eq]
  simp [h.rawDepth, h.inHead, h.inTable, h.inPre]

end TakesPre

/-- Preformatted text leaves the open elements as they are. -/
theorem addPre_styles (flow : Flow) (s : Text) :
    (flow.addPre settings s).styles = flow.styles := by
  obtain ⟨q, qs, hpieces⟩ := Text.exists_splitOn '\n'
    (Text.unifyNewlines (if flow.preFresh then dropFirstBreak s else s))
  rw [addPre_eq hpieces, (addPieces_frame qs _).2, (addPiece_frame settings q _).2]

/-- After a token within the block, text still goes to preformatted lines. -/
theorem TakesPre.feed (h : flow.TakesPre) {token : Token} (htoken : token.IsPreInline settings) :
    (flow.feed settings token).TakesPre := by
  have htitled := titleOwned_feed h.titled settings token
  by_cases htag : ∀ s, token ≠ .text s
  · obtain ⟨anchors, notices, hfeed⟩ := h.feed_tag htoken htag
    rw [hfeed] at htitled ⊢
    refine ⟨h.rawDepth, h.inHead, h.inPre, h.inTable, htitled, ?_⟩
    show ∀ e ∈ (flow.styles.after settings token).elements, flow.context.titleSerial = _ → _
    cases token with
    | text s => exact absurd rfl (htag s)
    | empty name attributes => exact h.owner
    | opening name attributes =>
      intro e he htitle
      rcases List.mem_cons.1 he with rfl | he
      · -- The title was opened by an element before.
        obtain ⟨-, owner, howner, hserial⟩ := h.titled.owner _ htitle
        have hle := h.titled.serial_le owner howner
        rw [hserial] at hle
        exact absurd hle (Nat.not_succ_le_self _)
      · exact h.owner e he htitle
    | closing name =>
      intro e he
      refine h.owner e ?_
      rw [Stack.after, Stack.pop?] at he
      cases hfind : flow.styles.elements.find? (·.name == name) with
      | none =>
        rw [hfind] at he
        exact he
      | some found =>
        rw [hfind] at he
        exact List.mem_of_mem_eraseP he
  · obtain ⟨s, rfl⟩ : ∃ s, token = .text s := by simpa using htag
    obtain ⟨headingText, hcollect⟩ := exists_collectHeading flow s
    rw [h.feed_text, hcollect] at htitled ⊢
    refine ⟨?_, ?_, ?_, ?_, htitled, ?_⟩
    all_goals rw [addPre_context]
    · exact h.rawDepth
    · exact h.inHead
    · exact h.inPre
    · exact h.inTable
    · rw [addPre_styles]
      exact h.owner

/-- **A token within the block** writes its text behind the text before. -/
theorem PreText.feed (h : flow.PreText settings start t) (htakes : flow.TakesPre) {token : Token}
    (htoken : token.IsPreInline settings) (hreturn : '\r' ∉ token.content) :
    (flow.feed settings token).PreText settings start (t ++ token.content) := by
  obtain ⟨above, last, hsplit, hwritten⟩ := h.written
  by_cases htag : ∀ s, token ≠ .text s
  · obtain ⟨anchors, notices, hfeed⟩ := htakes.feed_tag htoken htag
    rw [hfeed, Token.content_eq_nil htag, List.append_nil]
    exact ⟨h.fresh, above, last, hsplit, hwritten.inPre, hwritten.indent, hwritten.lines,
      hwritten.shown, hwritten.preLineOpen, hwritten.current⟩
  · obtain ⟨s, rfl⟩ : ∃ s, token = .text s := by simpa using htag
    obtain ⟨headingText, hcollect⟩ := exists_collectHeading flow s
    rw [htakes.feed_text, hcollect]
    have hcollected : PreText settings
        { flow with context := { flow.context with headingText } } start t :=
      ⟨h.fresh, above, last, hsplit, hwritten.inPre, hwritten.indent, hwritten.lines,
        hwritten.shown, hwritten.preLineOpen, hwritten.current⟩
    exact hcollected.addPre hreturn

/-- **Tokens within the block** write their joined text, however it is cut. -/
theorem PreText.feedAll (tokens : List Token) (h : flow.PreText settings start t)
    (htakes : flow.TakesPre) (htokens : ∀ token ∈ tokens, token.IsPreInline settings)
    (hreturn : '\r' ∉ Token.contents tokens) :
    (flow.feedAll settings tokens).TakesPre ∧
      (flow.feedAll settings tokens).PreText settings start (t ++ Token.contents tokens) := by
  induction tokens generalizing flow t with
  | nil =>
    rw [Token.contents_nil, List.append_nil]
    exact ⟨htakes, h⟩
  | cons token tokens ih =>
    rw [Token.contents_cons, List.mem_append, not_or] at hreturn
    have htoken := htokens token List.mem_cons_self
    rw [Token.contents_cons, ← List.append_assoc]
    exact ih (h.feed htakes htoken hreturn.1) (htakes.feed htoken)
      (fun next hnext => htokens next (List.mem_cons_of_mem _ hnext)) hreturn.2

/-! ## (4) The start and the end of the block -/

/-- **A line that is ended** is the last one with text if it was begun, and no line with text is the
last one otherwise. -/
theorem newLine_endsInText (flow : Flow) :
    flow.newLine.endsInText = decide (flow.current ≠ []) := by
  by_cases hnil : flow.current = []
  · by_cases hend : flow.endsInText = true
    · rw [newLine_of_endsInText hnil hend]
      simp [endsInText, addLine, hnil]
    · rw [newLine_of_not_endsInText hnil (by simpa using hend)]
      simpa [endsInText, hnil] using hend
  · rw [newLine_of_begun hnil]
    simp [endsInText, commit, hnil]

/-- Between two lines, a new line adds a blank one at most, and the page does not end in text after
it. -/
theorem newLine_between (h : flow.current = []) : ∃ n ≤ 1,
    flow.newLine = { flow.addBlanks n with continuation := [], glue := false } ∧
      flow.newLine.endsInText = false := by
  by_cases hend : flow.endsInText = true
  · refine ⟨1, le_rfl, newLine_of_endsInText h hend, ?_⟩
    rw [newLine_of_endsInText h hend]
    simp [endsInText, addLine]
  · have hend' : flow.endsInText = false := by simpa using hend
    refine ⟨0, Nat.zero_le 1, ?_, ?_⟩
    · rw [newLine_of_not_endsInText h hend', addBlanks_zero]
    · rw [newLine_of_not_endsInText h hend']
      exact hend'

/-- Between two lines, the start of a title adds a blank one behind text, and none otherwise. -/
theorem openTitle_between (hnil : flow.current = []) :
    flow.openTitle = { flow with
      page := { flow.page with
        lines := flow.page.lines ++ if flow.endsInText then [[]] else [] }
      context := { flow.context with inTitle := true, titleSerial := some flow.styles.opened }
      continuation := []
      glue := false } := by
  have hblank := newLine_endsInText flow
  rw [decide_eq_false (not_not_intro hnil)] at hblank
  rw [openTitle, newLine_of_not_endsInText (newLine_current flow) hblank]
  by_cases hend : flow.endsInText = true
  · rw [newLine_of_endsInText hnil hend, if_pos hend]
    rfl
  · rw [newLine_of_not_endsInText hnil (by simpa using hend), if_neg hend, List.append_nil]
    rfl

/-- Where the page does not end in text, the end of a title adds no line. -/
theorem closeTitle_between (h : flow.current = []) (hend : flow.endsInText = false) :
    flow.closeTitle = { flow with
      context := { flow.context with inTitle := false, titleSerial := none }
      continuation := []
      glue := false } := by
  rw [closeTitle, newLine_of_not_endsInText h hend]
  exact newLine_of_not_endsInText h hend

/-- Where the page does not end in text, nothing is laid out when an element is taken from the
stack. -/
theorem popElement_between (name : Text) (h : flow.current = []) (hend : flow.endsInText = false) :
    (flow.popElement name).page = flow.page ∧ (flow.popElement name).spans = flow.spans ∧
      (flow.popElement name).current = [] ∧ (flow.popElement name).hasWords = flow.hasWords ∧
      (flow.popElement name).pendingMark = flow.pendingMark := by
  unfold popElement
  cases flow.styles.pop? name with
  | none => exact ⟨rfl, rfl, h, rfl, rfl⟩
  | some popped =>
    dsimp only
    split
    · have hpop : ({ flow with styles := popped.2 } : Flow).current = [] := h
      rw [closeTitle_between hpop hend]
      exact ⟨rfl, rfl, h, rfl, rfl⟩
    · exact ⟨rfl, rfl, h, rfl, rfl⟩

/-- A block has no text at its start. -/
theorem preText_start (hpre : flow.context.inPre = true) (hfresh : flow.preFresh = true)
    (hopen : flow.preLineOpen = false) (hnil : flow.current = []) :
    flow.PreText settings flow [] :=
  ⟨hfresh, [], [], rfl,
    ⟨hpre, rfl, (List.append_nil _).symm, fun _ _ hline => (nomatch hline), hopen, hnil⟩⟩

/-- **The start of the block.** -/
theorem openTag_pre (h : flow.TakesWords) (htitled : flow.TitleOwned) (settings : Settings)
    (attributes : List Attribute) :
    (flow.openTag settings "pre".toList attributes).TakesPre ∧
      (flow.openTag settings "pre".toList attributes).PreText settings
        (flow.openTag settings "pre".toList attributes) [] ∧
      (flow.openTag settings "pre".toList attributes).indent settings = flow.indent settings := by
  have htracks : flow.tracks "pre".toList = true := tracks_of_shown h.inHead (by decide)
  have hrole : TagRole.ofName "pre".toList = .pre := by decide
  have howned : (flow.openTag settings "pre".toList attributes).TitleOwned :=
    titleOwned_feed htitled settings (.opening "pre".toList attributes)
  -- The block and its element are open; a title may be opened behind them.
  obtain ⟨pushed, hpushed, hcontext, hstyles, hnil, hfresh, hopen⟩ : ∃ pushed : Flow,
      pushed = ((flow.openBlock settings .pre).recordAnchor attributes).pushElement settings
        "pre".toList attributes ∧
      pushed.context = { flow.context with inPre := true } ∧
      pushed.styles = flow.styles.push "pre".toList attributes settings.classStyles ∧
      pushed.current = [] ∧ pushed.preFresh = true ∧ pushed.preLineOpen = false := by
    obtain ⟨anchors, hanchors⟩ := exists_recordAnchor (flow.openBlock settings .pre) attributes
    refine ⟨_, rfl, ?_⟩
    rw [hanchors]
    refine ⟨?_, ?_, newLine_current flow, rfl, rfl⟩
    · show { flow.newLine.context with inPre := true } = _
      rw [newLine_context]
    · exact congrArg (·.push "pre".toList attributes settings.classStyles)
        (leadsOnlyTo_newLine flow).styles
  have howner : ∀ e ∈ pushed.styles.elements, e.serial ≤ flow.styles.opened ∨
      e.name = "pre".toList := by
    rw [hstyles]
    intro e he
    rcases List.mem_cons.1 he with rfl | he
    · exact .inr rfl
    · exact .inl (htitled.serial_le e he)
  have hnumber : pushed.styles.opened = flow.styles.opened + 1 := by rw [hstyles]; rfl
  rw [openTag_stacked htracks, hrole, ← hpushed] at howned ⊢
  dsimp only at howned ⊢
  split
  · rename_i htitle
    have hopened := openTitle_between hnil
    rw [if_pos htitle, hopened] at howned
    rw [hopened]
    refine ⟨⟨?_, ?_, ?_, ?_, howned, fun e he hserial => ?_⟩,
      preText_start ?_ hfresh hopen hnil, ?_⟩
    · simp [hcontext, h.rawDepth]
    · simp [hcontext, h.inHead]
    · simp [hcontext]
    · simp [hcontext, h.inTable]
    · have hserial' : pushed.styles.opened = e.serial := Option.some.inj hserial
      exact (howner e he).resolve_left (by omega)
    · simp [hcontext]
    · simp [indent, hcontext, BlockContext.indent]
  · rename_i htitle
    rw [if_neg htitle] at howned
    refine ⟨⟨?_, ?_, ?_, ?_, howned, fun e he hserial => ?_⟩,
      preText_start ?_ hfresh hopen hnil, ?_⟩
    · simp [hcontext, h.rawDepth]
    · simp [hcontext, h.inHead]
    · simp [hcontext]
    · simp [hcontext, h.inTable]
    · rw [hcontext] at hserial
      exact absurd (hserial.symm.trans h.titleSerial) (Option.some_ne_none _)
    · simp [hcontext]
    · simp [indent, hcontext, BlockContext.indent]

/-- The end of a line puts the text of the last line behind the lines above, unless it is empty. -/
theorem PreWritten.endPreLine (h : flow.PreWritten settings start above last) :
    (flow.endPreLine settings).PreWritten settings start
      (above ++ if last = [] then [] else [last]) [] := by
  unfold Flow.endPreLine
  rw [h.preLineOpen]
  by_cases hlast : last = []
  · rw [if_pos hlast, if_neg (by simp [hlast]), List.append_nil]
    exact hlast ▸ h
  · rw [if_neg hlast, if_pos (by simp [hlast])]
    exact h.commitPre

/-- **The end of the block.** -/
theorem PreText.closeTag (h : flow.PreText settings start t) (htakes : flow.TakesPre) :
    (∃ n ≤ 1, (flow.closeTag settings "pre".toList).page.lines =
      start.page.lines ++ (Text.preLines t).map (start.indent settings ++ ·) ++
        List.replicate n []) ∧
    (flow.closeTag settings "pre".toList).ShowsCode start.lineIndex
      ((Text.preLines t).map (start.indent settings ++ ·)) := by
  obtain ⟨above, last, hsplit, hwritten⟩ := h.written
  have htracks : flow.tracks "pre".toList = true := tracks_of_shown htakes.inHead (by decide)
  have hrole : TagRole.ofName "pre".toList = .pre := by decide
  have hend := hwritten.endPreLine
  rw [← Text.preLines_eq hsplit] at hend
  have hnil : ((flow.endPreLine settings).updateContext ({ · with inPre := false })).current = [] :=
    hend.current
  obtain ⟨n, hn, hline, hblank⟩ := newLine_between hnil
  obtain ⟨hpage, hspans, -⟩ := popElement_between "pre".toList (newLine_current _) hblank
  rw [closeTag_stacked htracks, hrole, closeBlock, closePre_eq, if_pos hwritten.inPre]
  refine ⟨⟨n, hn, ?_⟩, hend.shown.mono ?_ ?_⟩
  · rw [hpage, hline, ← hend.lines]
    rfl
  · rw [hpage, hline]
    exact fun _ hi => hi
  · rw [hspans, hline]
    exact fun _ hr => hr

/-- **Preformatted text is laid out as it stands,** however it is cut. Behind any tokens, at a place
where text goes to the lines of the page, the lines of a preformatted block are those of its joined
text, each after the indentation of its place, with a blank line behind them at most. All of them
are exempt from justification, and those that are not empty are highlighted as code. -/
theorem feedAll_pre (settings : Settings) (before tokens : List Token)
    (attributes : List Attribute) (hplace : (feedAll {} settings before).TakesWords)
    (htokens : ∀ token ∈ tokens, token.IsPreInline settings)
    (hreturn : '\r' ∉ Token.contents tokens) :
    let place := feedAll {} settings before
    let opened := place.feed settings (.opening "pre".toList attributes)
    let closed := (opened.feedAll settings tokens).feed settings (.closing "pre".toList)
    let content := (Text.preLines (Token.contents tokens)).map (place.indent settings ++ ·)
    (∃ n ≤ 1, closed.page.lines = opened.page.lines ++ content ++ List.replicate n []) ∧
      closed.ShowsCode opened.lineIndex content := by
  intro place opened closed content
  have hfresh : TitleOwned {} :=
    ⟨fun _ he => absurd he List.not_mem_nil, fun _ h => absurd h.symm (Option.some_ne_none _)⟩
  have htitled : place.TitleOwned := titleOwned_feedAll hfresh settings before
  obtain ⟨htakes, hstart, hindent⟩ := openTag_pre hplace htitled settings attributes
  obtain ⟨htakes', htext⟩ := hstart.feedAll tokens htakes htokens hreturn
  rw [List.nil_append] at htext
  have hclose := htext.closeTag htakes'
  rwa [hindent] at hclose

/-- Code in an item of a list, cut behind its first line break and between two others. -/
theorem feedAll_pre_item :
    let item : List Token := [.opening "ul".toList [], .opening "li".toList []]
    let tokens : List Token :=
      [.opening "code".toList [], .text "\n".toList, .text "a  b\n".toList,
        .closing "code".toList, .text "\nc\n".toList]
    let place := feedAll {} {} item
    let opened := place.feed {} (.opening "pre".toList [])
    let closed := (opened.feedAll {} tokens).feed {} (.closing "pre".toList)
    (place.TakesWords ∧ (∀ token ∈ tokens, token.IsPreInline {}) ∧
        '\r' ∉ Token.contents tokens) ∧
      (∃ n ≤ 1, closed.page.lines =
        ["  • ".toList] ++ ["  a  b".toList, "  ".toList, "  c".toList] ++ List.replicate n []) ∧
      closed.ShowsCode 1 ["  a  b".toList, "  ".toList, "  c".toList] := by
  intro item tokens place opened closed
  have hplace : place.TakesWords := ⟨by decide, by decide, by decide, by decide, by decide⟩
  have htokens : ∀ token ∈ tokens, token.IsPreInline {} := by decide
  have hreturn : '\r' ∉ Token.contents tokens := by decide
  obtain ⟨content, hcontent, hpieces⟩ : ∃ content,
      content = (Text.preLines (Token.contents tokens)).map (place.indent {} ++ ·) ∧
        content = ["  a  b".toList, "  ".toList, "  c".toList] := ⟨_, rfl, by decide⟩
  have hlines : opened.page.lines = ["  • ".toList] := by decide
  have hresult :
      (∃ n ≤ 1, closed.page.lines = opened.page.lines ++ content ++ List.replicate n []) ∧
        closed.ShowsCode opened.page.lines.length content :=
    hcontent ▸ feedAll_pre {} item tokens [] hplace htokens hreturn
  clear_value opened closed
  rw [hpieces, hlines] at hresult
  exact ⟨⟨hplace, htokens, hreturn⟩, hresult⟩

end Flow

end ChapterLayout
