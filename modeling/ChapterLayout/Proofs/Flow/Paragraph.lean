import ChapterLayout.Proofs.Flow.Anchors
import ChapterLayout.Proofs.Flow.AppendOnly
import ChapterLayout.Proofs.Flow.BlankLines
import ChapterLayout.Proofs.Flow.Wrapping

/-! # The lines of a paragraph

A paragraph that is opened outside every block is laid out from the line its anchor stands on to the
blank line that its closing tag adds, and what comes behind it changes none of these lines:

* **`growsTo_feedAll`** — the page of a layout only grows;
* **`takesParagraph_openTag`** — the opening tag ends the line before it and records the anchor;
* **`TakesParagraph.feedAll`** — text and tags within a line are wrapped from there on;
* **`closeTag_lines`** — the closing tag ends the last line and adds a blank one;
* **`run_paragraph`** — so the wrapped words stand behind the anchor on the page of the chapter, and
  a blank line or the end of the page comes after them. -/

namespace ChapterLayout

/-- The values of a table may be changed before or after one of them is looked up. -/
theorem lookup_map_values {κ ν ν' : Type} [BEq κ] (f : ν → ν') (key : κ)
    (entries : List (κ × ν)) :
    (entries.map fun entry => (entry.1, f entry.2)).lookup key =
      (entries.lookup key).map f := by
  induction entries with
  | nil => rfl
  | cons entry entries ih =>
    rw [List.map_cons, List.lookup_cons, List.lookup_cons, ih]
    split <;> rfl

namespace Flow

variable {settings : Settings} {flow start : Flow} {id : Text} {attributes : List Attribute}
  {content : List Token}

/-! ## (1) Pages that grow -/

/-- A token adds to the page. -/
theorem growsTo_feed (settings : Settings) (tokens : List Token) (token : Token) :
    (feedAll {} settings tokens).page.GrowsTo
      ((feedAll {} settings tokens).feed settings token).page := by
  have hbegun := begun_feedAll settings tokens
  obtain ⟨acted, hfeat, hplains⟩ := feed_does settings (feedAll {} settings tokens) token
  have hacted : acted.Begun settings := hbegun.changes hfeat.changes
  have hextends := hfeat.extends hbegun (marksWord_feedAll settings tokens)
  exact hextends.page.trans (hplains.appends hacted).page

/-- **The page of a layout only grows.** -/
theorem growsTo_feedAll (settings : Settings) (tokens more : List Token) :
    (feedAll {} settings tokens).page.GrowsTo (feedAll {} settings (tokens ++ more)).page := by
  induction more using List.reverseRecOn with
  | nil =>
    rw [List.append_nil]
    exact Page.growsTo_refl _
  | append_singleton more token ih =>
    rw [← List.append_assoc, feedAll_append]
    exact ih.trans (growsTo_feed settings (tokens ++ more) token)

/-- What is laid out of the first tokens stays until the end of the chapter. -/
theorem growsTo_flush (settings : Settings) {first tokens : List Token} (h : first <+: tokens) :
    (feedAll {} settings first).page.GrowsTo
      ((feedAll {} settings tokens).flush settings).page := by
  obtain ⟨more, rfl⟩ := h
  exact (growsTo_feedAll settings first more).trans
    ((flush_plains _).appends (begun_feedAll settings (first ++ more))).page

/-! ## (2) The opening tag -/

/-- Whether a paragraph with an anchor begins on the next line, without any indentation. -/
structure TakesParagraph (settings : Settings) (id : Text) (flow : Flow) : Prop where
  takesWords : flow.TakesWords
  indent : flow.indent settings = []
  current : flow.current = []
  hasWords : flow.hasWords = false
  pendingMark : flow.pendingMark = []
  anchor : flow.page.anchor? id = some (flow.lineIndex : Int)

/-- Outside every block, text goes to the lines of the page as it is. -/
theorem takesWords_of_isEmpty (h : flow.context.isEmpty = true) (howned : flow.TitleOwned) :
    flow.TakesWords ∧ flow.indent settings = [] := by
  simp only [BlockContext.isEmpty, Bool.and_eq_true, Bool.not_eq_true', List.isEmpty_iff,
    beq_iff_eq] at h
  obtain ⟨⟨⟨⟨⟨⟨⟨⟨hlists, hquotes⟩, htable⟩, -⟩, hpre⟩, htitle⟩, hdescription⟩, hhead⟩, hraw⟩ := h
  refine ⟨⟨hraw, hhead, hpre, htable, ?_⟩, BlockContext.indent_eq_nil hquotes hlists hdescription⟩
  cases hserial : flow.context.titleSerial with
  | none => rfl
  | some serial =>
    exact absurd (htitle.symm.trans (howned.owner serial hserial).1) Bool.false_ne_true

/-- A name that is not recorded yet is recorded on the current line. -/
theorem anchor?_recordAnchor (hid : Attribute.nonempty? attributes "id".toList = some id)
    (hnew : flow.page.anchor? id = none) :
    (flow.recordAnchor attributes).page.anchor? id = some (flow.lineIndex : Int) := by
  unfold recordAnchor
  rw [hid]
  dsimp only
  rw [hnew, if_neg (by simp)]
  show List.lookup id (flow.page.anchors ++ [(id, (flow.lineIndex : Int))]) = _
  rw [List.lookup_append, show List.lookup id flow.page.anchors = none from hnew,
    List.lookup_cons_self]
  rfl

/-- **The opening tag of a paragraph** ends the line before it, and its anchor stands on the next
one. -/
theorem takesParagraph_openTag (hflow : flow.TakesWords) (hindent : flow.indent settings = [])
    (hbegun : flow.Begun settings) (hlacks : flow.Lacks id)
    (hid : Attribute.nonempty? attributes "id".toList = some id)
    (htitle : opensTitle settings attributes = false) :
    (flow.openTag settings "p".toList attributes).TakesParagraph settings id := by
  have hrole : TagRole.ofName "p".toList = .paragraph := by decide
  have htracks : flow.tracks "p".toList = true := hflow.tracks (by decide)
  have hopened : flow.openTag settings "p".toList attributes =
      (flow.newLine.recordAnchor attributes).pushElement settings "p".toList attributes := by
    rw [openTag_stacked htracks, hrole, htitle]
    dsimp only
    rw [Bool.and_false]
    rfl
  -- The line before is ended first, so the anchor is recorded on the line that the text starts on.
  have hline : flow.newLine.Lacks id := (leadsOnlyTo_newLine flow).toSameRecords.lacks hlacks
  have hanchor := anchor?_recordAnchor hid hline.anchor
  obtain ⟨anchors, hanchors⟩ := exists_recordAnchor flow.newLine attributes
  have hcontext : flow.newLine.context = flow.context := newLine_context flow
  rw [hopened]
  rw [hanchors] at hanchor ⊢
  refine ⟨hflow.of_context hcontext, ?_, newLine_current flow, newLine_hasWords hbegun,
    hline.pendingMark, hanchor⟩
  show flow.newLine.context.indent settings.typography = []
  rw [hcontext]
  exact hindent

/-- Behind tokens that leave no block open, a paragraph with a new anchor begins. -/
theorem takesParagraph_feedAll {before : List Token}
    (hname : ∀ token ∈ before, token.anchorName? ≠ some id)
    (hrole : ∀ token ∈ before, token.role ≠ .code)
    (hempty : (feedAll {} settings before).context.isEmpty = true)
    (hid : Attribute.nonempty? attributes "id".toList = some id)
    (htitle : opensTitle settings attributes = false) :
    (feedAll {} settings (before ++ [.opening "p".toList attributes])).TakesParagraph settings
      id := by
  obtain ⟨hflow, hindent⟩ := takesWords_of_isEmpty hempty (titleOwned_layout settings before)
  rw [feedAll_append]
  exact takesParagraph_openTag hflow hindent (begun_feedAll settings before)
    (lacks_feedAll settings before hname hrole) hid htitle

/-! ## (3) The text -/

/-- A state still takes words after tokens within a line. -/
theorem TakesWords.feedAll (tokens : List Token) (h : flow.TakesWords)
    (htokens : ∀ token ∈ tokens, token.IsInline settings) :
    (flow.feedAll settings tokens).TakesWords := by
  induction tokens generalizing flow with
  | nil => exact h
  | cons token tokens ih =>
    exact ih (h.feed (htokens token List.mem_cons_self))
      fun other hother => htokens other (List.mem_cons_of_mem _ hother)

/-- **The text of a paragraph** is wrapped from its anchor on. -/
theorem TakesParagraph.feedAll (h : start.TakesParagraph settings id)
    (hcontent : ∀ token ∈ content, token.IsInline settings)
    (hwords : Text.words Text.isFlowBlank (Token.contents content) ≠ []) :
    (start.feedAll settings content).current ≠ [] ∧
      (start.feedAll settings content).page.lines ++ [(start.feedAll settings content).current] =
        start.page.lines ++ Text.wrap settings.maxWidth [] []
          (Text.words Text.isFlowBlank (Token.contents content)) := by
  have hstart : Holds settings start start [] :=
    ⟨.inl ⟨rfl, h.hasWords, rfl, rfl, rfl, rfl, h.pendingMark, .inl h.current⟩,
      fun hne => absurd rfl hne⟩
  have hlaid := (hstart.feedAll content h.takesWords hcontent).laid
  rw [List.nil_append] at hlaid
  have hfirst : start.firstStart settings = [] := by rw [firstStart, if_pos h.current, h.indent]
  have hnext : start.nextStart settings = [] := by rw [nextStart, if_pos h.current, h.indent]
  constructor
  · rcases hlaid with ⟨hnil, -⟩ | ⟨before, word, -, hfilled⟩
    · exact absurd hnil hwords
    · exact hfilled.holds.current_ne_nil
  · rw [hlaid.lines_eq, if_neg hwords, hfirst, hnext]

/-! ## (4) The closing tag -/

/-- The end of a paragraph adds a blank line. -/
theorem paragraphBreak_lines (settings : Settings) (h : flow.current ≠ []) : ∃ n,
    (flow.paragraphBreak settings).page.lines =
      flow.page.lines ++ [flow.current] ++ [] :: List.replicate n [] := by
  have hpos := spacing_pos settings
  obtain ⟨n, hn⟩ : ∃ n, settings.typography.paragraphSpacing.toNat = n + 1 :=
    Nat.exists_eq_add_one.2 hpos
  have hline : flow.newLine.page.lines = flow.page.lines ++ [flow.current] := by
    rw [newLine_of_begun h]
    rfl
  have htrailing : flow.newLine.trailingBlanks = 0 := by
    simp [trailingBlanks, hline, h]
  refine ⟨n, ?_⟩
  unfold paragraphBreak
  dsimp only
  rw [if_neg (by simp [hline]), htrailing, hline, Int.natCast_zero, Int.sub_zero, hn,
    List.replicate_succ]

/-- **The closing tag of a paragraph** ends its last line and adds a blank one. -/
theorem closeTag_lines (settings : Settings) (hflow : flow.TakesWords) (h : flow.current ≠ []) :
    ∃ n, (flow.closeTag settings "p".toList).page.lines =
      flow.page.lines ++ [flow.current] ++ [] :: List.replicate n [] := by
  have hrole : TagRole.ofName "p".toList = .paragraph := by decide
  obtain ⟨n, hbreak⟩ := paragraphBreak_lines settings h
  have hcontext := (closeBlock_leadsTo settings flow .paragraph).context
  have hserial : (flow.closeBlock settings (TagRole.ofName "p".toList)).context.titleSerial =
      none := by
    rw [hrole, hcontext]
    exact hflow.titleSerial
  obtain ⟨styles, anchors, notices, hclosed⟩ := exists_closeTag hflow (by decide) hserial
  refine ⟨n, ?_⟩
  rw [hclosed, hrole]
  exact hbreak

/-! ## (5) Chapters -/

/-- The number of lines laid out since a state, if the line that is being filled ends here. -/
def height (start flow : Flow) : Nat := flow.newLine.lineIndex - start.lineIndex

/-- A line that is being filled is counted along with those on the page. -/
theorem height_eq {added : List Line} (h : flow.current ≠ [])
    (hlines : flow.page.lines ++ [flow.current] = start.page.lines ++ added) :
    start.height flow = added.length := by
  have hline : flow.newLine.page.lines = flow.page.lines ++ [flow.current] := by
    rw [newLine_of_begun h]
    rfl
  rw [height, lineIndex, hline, hlines, List.length_append, lineIndex, Nat.add_sub_cancel_left]

/-- Lines that end in text stay on the page when blank lines are dropped behind them. -/
theorem dropTrailingBlanks_text (above rest : List Line) {last : Line} (hlast : last ≠ [])
    (hrest : ∀ line, rest.head? = some line → line = []) :
    ∃ rest', dropTrailingBlanks (above ++ [last] ++ rest) = above ++ [last] ++ rest' ∧
      ∀ line, rest'.head? = some line → line = [] := by
  obtain ⟨blanks, hblanks, -⟩ := exists_dropTrailingBlanks_append (above ++ [last] ++ rest)
  have hget : (above ++ [last] ++ rest)[above.length]? = some last := by simp
  have hlt := lt_length_dropTrailingBlanks hget hlast
  have hlength : (above ++ [last]).length ≤
      (dropTrailingBlanks (above ++ [last] ++ rest)).length := by
    rw [List.length_append, List.length_singleton]
    exact hlt
  have hprefix : above ++ [last] <+: dropTrailingBlanks (above ++ [last] ++ rest) :=
    List.prefix_of_prefix_length_le (List.prefix_append _ _) ⟨blanks, hblanks.symm⟩ hlength
  obtain ⟨rest', hlines⟩ := hprefix
  refine ⟨rest', hlines.symm, fun line hline => hrest line ?_⟩
  rw [← hlines, List.append_assoc _ rest', List.append_cancel_left_eq] at hblanks
  rw [hblanks, List.head?_append, hline, Option.some_or]

/-- An anchor on a line that stays on the page stays there. -/
theorem anchor?_trimPage {k : Nat} (h : flow.page.anchor? id = some (k : Int))
    (hk : k < (dropTrailingBlanks flow.page.lines).length) :
    flow.trimPage.page.anchor? id = some (k : Int) := by
  show List.lookup id (flow.page.anchors.map fun entry => (entry.1, min entry.2 _)) = _
  rw [lookup_map_values (min · _), show List.lookup id flow.page.anchors = some (k : Int) from h,
    Option.map_some, Option.some_inj]
  omega

/-- **The lines of a paragraph.** On the page of a chapter the words of a paragraph stand wrapped
from the line of its anchor on, and a blank line or the end of the page comes after them. -/
theorem run_paragraph {tokens before after : List Token}
    (htokens : tokens =
      before ++ .opening "p".toList attributes :: (content ++ .closing "p".toList :: after))
    (hname : ∀ token ∈ before, token.anchorName? ≠ some id)
    (hrole : ∀ token ∈ before, token.role ≠ .code)
    (hempty : (feedAll {} settings before).context.isEmpty = true)
    (hid : Attribute.nonempty? attributes "id".toList = some id)
    (htitle : opensTitle settings attributes = false)
    (hcontent : ∀ token ∈ content, token.IsInline settings)
    (hwords : Text.words Text.isFlowBlank (Token.contents content) ≠ []) :
    let opened := feedAll {} settings (before ++ [.opening "p".toList attributes])
    let wrapped := Text.wrap settings.maxWidth [] []
      (Text.words Text.isFlowBlank (Token.contents content))
    wrapped.length = opened.height (opened.feedAll settings content) ∧
      (run settings tokens).page.anchor? id = some (opened.lineIndex : Int) ∧
        ∃ rest, (run settings tokens).page.lines = opened.page.lines ++ wrapped ++ rest ∧
          ∀ line, rest.head? = some line → line = [] := by
  intro opened wrapped
  have htakes : opened.TakesParagraph settings id :=
    takesParagraph_feedAll hname hrole hempty hid htitle
  obtain ⟨hcurrent, hlines⟩ := htakes.feedAll hcontent hwords
  have hfilled := htakes.takesWords.feedAll content hcontent
  obtain ⟨n, hclosed⟩ := closeTag_lines settings hfilled hcurrent
  -- What comes behind the paragraph only adds to the page.
  have hfirst : before ++ [.opening "p".toList attributes] <+: tokens :=
    ⟨content ++ .closing "p".toList :: after, by simp [htokens]⟩
  have hsecond : before ++ [.opening "p".toList attributes] ++ content ++
      [.closing "p".toList] <+: tokens := ⟨after, by simp [htokens]⟩
  have hanchor := (growsTo_flush settings hfirst).anchors.lookup_eq_some htakes.anchor
  obtain ⟨more, hmore⟩ := (growsTo_flush settings hsecond).lines
  rw [feedAll_append, feedAll_append] at hmore
  change ((opened.feedAll settings content).closeTag settings "p".toList).page.lines ++ more =
    ((feedAll {} settings tokens).flush settings).page.lines at hmore
  rw [hclosed, List.append_assoc] at hmore
  -- The last line has text, so only blank lines behind it are dropped.
  obtain ⟨rest, hrest, hblank⟩ := dropTrailingBlanks_text
    (opened.feedAll settings content).page.lines ([] :: List.replicate n [] ++ more) hcurrent
    (by simp)
  rw [hmore, hlines] at hrest
  refine ⟨(height_eq hcurrent hlines).symm, anchor?_trimPage hanchor ?_, rest, hrest, hblank⟩
  have hpos : 0 < wrapped.length := List.length_pos_iff.2 (Text.wrap_ne_nil hwords)
  rw [hrest, List.length_append, List.length_append]
  show opened.page.lines.length < opened.page.lines.length + wrapped.length + rest.length
  omega

end Flow

end ChapterLayout
