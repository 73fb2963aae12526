import ChapterLayout.Proofs.Flow.Begun
import ChapterLayout.Proofs.Flow.Inline
import ChapterLayout.Proofs.Flow.Marks
import ChapterLayout.Proofs.Lists
import ChapterLayout.Proofs.Style.AskedFor
import ChapterLayout.Proofs.Style.Merge

/-! # Every character keeps its styles

Spans and links are emitted for pieces of words, and move when a word moves. They nevertheless stand
where the text under their elements stands:

* **`Token.inks`** — the visible characters of tokens, each with the style frames in force at it;
* **`Shows`** — the visible characters of the lines are those of the tokens, in order, and over each
  of them stand the spans and links of its frames, and no others;
* **`Traced.feedAll`** — a run on text within inline tags shows the characters of its tokens;
* **`run_keeps_styles`**, **`run_paints_styled`** — what this means for the merged highlights and the
  links of the finished page: they are what the frames ask for, but for single columns between. -/

namespace ChapterLayout

/-- A visible character of flow text, with the style frames in force where it is written. -/
structure Ink where
  char : Char
  frames : List Frame
  deriving DecidableEq, Repr

namespace Ink

/-- The groups that the frames paint the character with. -/
def groups (ink : Ink) : List Group := ink.frames.filterMap (·.mark.group?)

/-- The targets of the links around the character, the outermost first. -/
def targets (ink : Ink) : List Text := ink.frames.filterMap (·.mark.target?)

/-- The visible characters of a text under the given frames. -/
def ofText (frames : List Frame) (s : Text) : List Ink :=
  (s.filter fun c => !Text.isFlowBlank c).map (⟨·, frames⟩)

end Ink

/-- The visible characters of tokens, each with the frames in force at it. -/
def Token.inks (settings : Settings) : Stack → List Token → List Ink
  | _, [] => []
  | stack, token :: tokens =>
    Ink.ofText stack.active token.content ++ inks settings (stack.after settings token) tokens

namespace Flow

variable {settings : Settings} {flow : Flow} {inks : List Ink} {word : Text} {glue : Bool}

/-! ## (1) What the lines show -/

/-- The visible characters of the page and of the current line. -/
def cells (flow : Flow) : List Cell := visible (flow.page.lines ++ [flow.current])

/-- The visible characters of the lines are the given ones, and over each of them stand the spans
and links of its frames, and no others. -/
structure Shows (flow : Flow) (inks : List Ink) : Prop where
  char : flow.cells.map Cell.char = inks.map Ink.char
  spans : flow.cells.map (fun cell => (covering flow.spans cell).map Span.group) =
    inks.map Ink.groups
  links : flow.cells.map (fun cell => (covering flow.page.links cell).map Link.href) =
    inks.map Ink.targets
  /-- No record reaches beyond the line that is being filled, so the next word is behind them
  all. -/
  spansEnd : EndBefore flow.spans flow.lineIndex flow.current.length
  linksEnd : EndBefore flow.page.links flow.lineIndex flow.current.length
  /-- No span stands over a space. -/
  solid : Solid flow.spans flow.cells

/-- The cells of a state are those of its page and then those of the line that is being filled. -/
theorem cells_eq (flow : Flow) : flow.cells =
    visible flow.page.lines ++ textCells flow.lineIndex 0 flow.current :=
  visible_concat flow.page.lines flow.current

/-- The cells stand before the end of the current line. -/
theorem before_of_mem_cells {cell : Cell} (h : cell ∈ flow.cells) :
    cell.Before flow.lineIndex flow.current.length := by
  rw [cells_eq, List.mem_append] at h
  rcases h with h | h
  · exact Or.inl (line_lt_of_mem_visible h)
  · obtain ⟨hline, -, hend⟩ := bounds_of_mem_textCells h
    exact Or.inr ⟨hline, by omega⟩

/-- Spaces at the end of the line show nothing. -/
theorem Shows.blanks (h : flow.Shows inks) {blanks : Text}
    (hblanks : ∀ c ∈ blanks, Text.isSpace c = true) :
    Shows { flow with current := flow.current ++ blanks } inks := by
  have hcells : cells { flow with current := flow.current ++ blanks } = flow.cells := by
    rw [cells_eq, cells_eq, textCells_append, textCells_spaces hblanks, List.append_nil]
    rfl
  have hlength : (flow.current.length : Int) ≤ ((flow.current ++ blanks).length : Int) := by
    rw [List.length_append]
    push_cast
    omega
  refine ⟨?_, ?_, ?_, h.spansEnd.mono (Or.inr ⟨rfl, hlength⟩),
    h.linksEnd.mono (Or.inr ⟨rfl, hlength⟩), ?_⟩
  all_goals rw [hcells]
  · exact h.char
  · exact h.spans
  · exact h.links
  · exact h.solid

/-- A committed line shows what it showed before. -/
theorem Shows.commit (h : flow.Shows inks) (htitle : flow.context.inTitle = false) :
    flow.commit.Shows inks := by
  have hcells : flow.commit.cells = flow.cells := by
    rw [cells_eq, commit_current, textCells, List.append_nil]
    rfl
  -- Outside titles a committed line gets no span of its own.
  have hspans : flow.commit.spans = flow.spans := by simp [Flow.commit, htitle]
  have hindex : (flow.commit.lineIndex : Int) = flow.lineIndex + 1 := by
    show (((flow.page.lines ++ [flow.current]).length : Nat) : Int) = _
    rw [List.length_append]
    rfl
  have hlater : (flow.lineIndex : Int) < flow.commit.lineIndex := by omega
  refine ⟨?_, ?_, ?_, ?_, h.linksEnd.mono (Or.inl hlater), ?_⟩
  · rw [hcells]
    exact h.char
  · rw [hcells, hspans]
    exact h.spans
  · rw [hcells]
    exact h.links
  · rw [hspans]
    exact h.spansEnd.mono (Or.inl hlater)
  · rw [hcells, hspans]
    exact h.solid

/-! ## (2) Words -/

/-- A word starts at the end of the line. -/
theorem Shows.startWord (h : flow.Shows inks) :
    flow.startWord.Shows inks ∧ flow.startWord.Marked :=
  ⟨⟨h.char, h.spans, h.links, h.spansEnd, h.linksEnd, h.solid⟩,
    marked_startWord h.spansEnd h.linksEnd⟩

/-- The records of a word say what its frames say. -/
theorem emitWord_values (frames : List Frame) (line startCol endCol : Int) :
    (emitWord frames line startCol endCol).1.map Span.group =
        frames.filterMap (·.mark.group?) ∧
      (emitWord frames line startCol endCol).2.map Link.href =
        frames.filterMap (·.mark.target?) := by
  constructor
  all_goals
    rw [emitWord, List.map_filterMap]
    refine List.filterMap_congr fun frame _ => ?_
    rw [Option.map_map]
    exact Option.map_id'

/-- **A word that is placed** stands under the styles in force. -/
theorem Shows.place (h : flow.Shows inks) (hne : word ≠ [])
    (hword : ∀ c ∈ word, Text.isFlowBlank c = false) :
    (flow.place word).Shows (inks ++ word.map (⟨·, flow.styles.active⟩)) := by
  have hspace := isSpace_of_letter hword
  have hcells : (flow.place word).cells =
      flow.cells ++ textCells flow.lineIndex flow.current.length word := by
    rw [cells_eq, cells_eq, List.append_assoc]
    congr 1
    show textCells flow.lineIndex 0 (flow.current ++ word) = _
    rw [textCells_append, Int.zero_add]
  have hlength : ((flow.place word).current.length : Int) = flow.current.length + word.length := by
    show ((flow.current ++ word).length : Int) = _
    rw [List.length_append]
    rfl
  obtain ⟨hspans, hlinks⟩ := emitWord_columns flow.styles.active flow.lineIndex flow.current.length
    (flow.place word).current.length
  obtain ⟨hgroups, htargets⟩ := emitWord_values flow.styles.active flow.lineIndex
    flow.current.length (flow.place word).current.length
  -- The records before the word end before it, and its own at the new end of the line.
  have hgrow : (flow.lineIndex : Int) < flow.lineIndex ∨ (flow.lineIndex : Int) = flow.lineIndex ∧
      (flow.current.length : Int) ≤ (flow.place word).current.length := by omega
  refine ⟨?_, ?_, ?_, (h.spansEnd.mono hgrow).append fun r hr => ?_,
    (h.linksEnd.mono hgrow).append fun r hr => ?_, ?_⟩
  · rw [hcells, List.map_append, List.map_append, h.char, map_char_textCells hspace, List.map_map]
    exact congrArg _ (List.map_id _).symm
  · rw [hcells]
    refine (map_covering_place Span.group (fun _ => before_of_mem_cells) h.spansEnd fun r hr =>
      ⟨(hspans r hr).1, (hspans r hr).2.1, (hspans r hr).2.2.trans hlength⟩).trans ?_
    rw [h.spans, map_const_textCells hspace, hgroups, List.map_append, List.map_map]
    rfl
  · rw [hcells]
    refine (map_covering_place Link.href (fun _ => before_of_mem_cells) h.linksEnd fun r hr =>
      ⟨(hlinks r hr).1, (hlinks r hr).2.1, (hlinks r hr).2.2.trans hlength⟩).trans ?_
    rw [h.links, map_const_textCells hspace, htargets, List.map_append, List.map_map]
    rfl
  · exact Or.inr ⟨(hspans r hr).1, (hspans r hr).2.2.le⟩
  · exact Or.inr ⟨(hlinks r hr).1, (hlinks r hr).2.2.le⟩
  · rw [hcells]
    exact h.solid.place hne hspace fun r hr =>
      ⟨(hspans r hr).1, (hspans r hr).2.1, (hspans r hr).2.2.trans hlength⟩

/-- The cells before the last word, and its own. -/
theorem cells_split (h : flow.wordStart ≤ flow.current.length) :
    flow.cells = (visible flow.page.lines ++
      textCells flow.lineIndex 0 (flow.current.take flow.wordStart)) ++
        textCells flow.lineIndex flow.wordStart (flow.current.drop flow.wordStart) := by
  have hlength : ((flow.current.take flow.wordStart).length : Int) = flow.wordStart := by
    rw [List.length_take]
    omega
  conv_lhs => rw [cells_eq, ← List.take_append_drop flow.wordStart flow.current]
  rw [textCells_append, hlength, Int.zero_add, List.append_assoc]

/-- A word moves to the start of the next line, and everything before it stays. -/
theorem cells_moveWord (hcontinuation : flow.continuation = []) :
    flow.moveWord.cells = (visible flow.page.lines ++
      textCells flow.lineIndex 0 (flow.current.take flow.wordStart)) ++
        textCells flow.moveWord.lineIndex (flow.wordStart + -flow.wordStart)
          (flow.current.drop flow.wordStart) := by
  have hcurrent : flow.moveWord.current = flow.current.drop flow.wordStart := by
    show flow.continuation ++ flow.current.drop flow.wordStart = _
    rw [hcontinuation, List.nil_append]
  have hlines : flow.moveWord.page.lines =
      flow.page.lines ++ [Text.trimRight Text.isSpace (flow.current.take flow.wordStart)] := rfl
  rw [cells_eq, hcurrent, hlines, visible_concat, textCells_trimRight, Int.add_right_neg]
  rfl

/-- The spans of a word move with it. -/
theorem spans_moveWord (hcontinuation : flow.continuation = [])
    (htitle : flow.context.inTitle = false) :
    flow.moveWord.spans = flow.spans.take flow.spanMark ++ (flow.spans.drop flow.spanMark).map
      (relocate (fun r line => { r with line }) flow.moveWord.lineIndex (-flow.wordStart)) := by
  have hshift : ((flow.continuation.length : Nat) : Int) - flow.wordStart = -flow.wordStart := by
    rw [hcontinuation, List.length_nil]
    omega
  have hbroken : flow.broken.spans = flow.spans.take flow.spanMark := by
    simp [broken, Flow.commit, htitle]
  rw [← hbroken, ← hshift]
  rfl

/-- The links of a word move with it. -/
theorem links_moveWord (hcontinuation : flow.continuation = []) :
    flow.moveWord.page.links = flow.page.links.take flow.linkMark ++
      (flow.page.links.drop flow.linkMark).map
        (relocate (fun r line => { r with line }) flow.moveWord.lineIndex (-flow.wordStart)) := by
  have hshift : ((flow.continuation.length : Nat) : Int) - flow.wordStart = -flow.wordStart := by
    rw [hcontinuation, List.length_nil]
    omega
  rw [← hshift]
  rfl

/-- **A word that moves** keeps its styles, and so does everything before it. -/
theorem Shows.moveWord (h : flow.Shows inks) (hm : flow.Marked)
    (htitle : flow.context.inTitle = false) (hcontinuation : flow.continuation = []) :
    flow.moveWord.Shows inks := by
  have hlater : (flow.lineIndex : Int) < flow.moveWord.lineIndex := by
    show _ < (((flow.page.lines ++ [_]).length : Nat) : Int)
    rw [List.length_append, List.length_singleton]
    exact Int.lt_succ _
  obtain ⟨hstart, hspanMark, hlinkMark⟩ := hm
  have hlength : (flow.moveWord.current.length : Int) = flow.current.length + -flow.wordStart := by
    show ((flow.continuation ++ flow.current.drop flow.wordStart).length : Int) = _
    rw [hcontinuation, List.nil_append, List.length_drop]
    omega
  have hbefore : ∀ cell ∈ visible flow.page.lines ++
      textCells flow.lineIndex 0 (flow.current.take flow.wordStart),
      cell.Before flow.lineIndex flow.wordStart := by
    intro cell hcell
    rcases List.mem_append.1 hcell with hcell | hcell
    · exact Or.inl (line_lt_of_mem_visible hcell)
    · obtain ⟨hline, -, hend⟩ := bounds_of_mem_textCells hcell
      rw [List.length_take] at hend
      exact Or.inr ⟨hline, by omega⟩
  -- The word and its records are cut off at the same column and moved by the same shift.
  have hcells := cells_split hstart
  have hmoved := cells_moveWord hcontinuation
  have hspans := spans_moveWord hcontinuation htitle
  have hlinks := links_moveWord hcontinuation
  refine ⟨?_, ?_, ?_, ?_, ?_, ?_⟩
  · rw [← h.char, hcells, hmoved, textCells_move flow.lineIndex]
    simp only [List.map_append, List.map_map]
    rfl
  · rw [← h.spans, hcells, hmoved, hspans]
    exact map_covering_move Span.group (relocates_span _ _) (fun _ => rfl) hlater hbefore hspanMark
  · rw [← h.links, hcells, hmoved, hlinks]
    exact map_covering_move Link.href (relocates_link _ _) (fun _ => rfl) hlater hbefore hlinkMark
  · rw [hspans, hlength]
    exact h.spansEnd.move (relocates_span _ _) hlater hspanMark
  · rw [hlinks, hlength]
    exact h.linksEnd.move (relocates_link _ _) hlater hlinkMark
  · rw [hspans, hmoved]
    exact (hcells ▸ h.solid).move (relocates_span _ _) hbefore hspanMark

/-- Room is made for a word without a character. -/
theorem Shows.makeRoom (h : flow.Shows inks) (htitle : flow.context.inTitle = false)
    (hcontinuation : flow.continuation = []) : (flow.makeRoom settings word).Shows inks := by
  rcases makeRoom_cases settings flow word with ⟨-, hroom⟩ | hroom
  · rw [hroom, hcontinuation]
    exact h.commit htitle
  · rw [hroom]
    exact h.blanks fun c hc => isSpace_of_mem_separator hc

/-! ## (3) Texts and tokens -/

/-- Outside all blocks, the visible characters laid out so far are the given ones. -/
structure Traced (flow : Flow) (inks : List Ink) : Prop where
  shows : flow.Shows inks
  /-- A word that may still move to the next line can be cut off together with its records. -/
  marked : flow.wordMovable = true → flow.Marked
  context : flow.context = {}
  pendingMark : flow.pendingMark = []
  continuation : flow.continuation = []
  current : flow.hasWords = false → flow.current = []

/-- What making room for a word leaves alone. -/
theorem makeRoom_frame (settings : Settings) (flow : Flow) (word : Text) :
    (flow.makeRoom settings word).context = flow.context ∧
      (flow.makeRoom settings word).styles = flow.styles ∧
      (flow.makeRoom settings word).pendingMark = flow.pendingMark ∧
      (flow.makeRoom settings word).continuation = flow.continuation := by
  rcases makeRoom_cases settings flow word with ⟨-, hroom⟩ | hroom
  all_goals
    rw [hroom]
    exact ⟨rfl, rfl, rfl, rfl⟩

/-- Outside all blocks lines have no indentation. -/
theorem Traced.beginLine (h : flow.Traced inks) : flow.beginLine settings = flow := by
  by_cases hw : flow.hasWords = true
  · exact beginLine_of_hasWords hw
  · have hw' : flow.hasWords = false := by simpa using hw
    have hnil := h.current hw'
    have hindent : flow.indent settings = [] := by
      rw [indent, h.context]
      exact BlockContext.indent_eq_nil rfl rfl rfl
    have hsame : ∀ line start, line = flow.current → start = flow.continuation →
        { flow with current := line, continuation := start } = flow := by
      rintro line start rfl rfl
      rfl
    rw [beginLine_of_empty hw' hnil, hindent]
    exact hsame _ _ hnil.symm h.continuation.symm

/-- A word leaves the open elements as they are. -/
theorem addWord_styles (flow : Flow) (word : Text) (glue : Bool) :
    (flow.addWord settings word glue).styles = flow.styles := by
  unfold addWord Flow.beginLine makeRoom fitWord
  dsimp only
  split_ifs <;> rfl

/-- Words leave the open elements as they are. -/
theorem addWords_styles (ws : List Text) (flow : Flow) :
    (flow.addWords settings ws).styles = flow.styles := by
  induction ws generalizing flow with
  | nil => rfl
  | cons w ws ih => exact (ih _).trans (addWord_styles flow w false)

/-- **A word** is laid out under the styles in force, wherever it goes. -/
theorem Traced.addWord (settings : Settings) (h : flow.Traced inks) (hne : word ≠ [])
    (hword : ∀ c ∈ word, Text.isFlowBlank c = false) (glue : Bool) :
    (flow.addWord settings word glue).Traced (inks ++ word.map (⟨·, flow.styles.active⟩)) := by
  have htitle : flow.context.inTitle = false := by rw [h.context]
  have hunmarked : flow.unmarked = flow := unmarked_of_nil h.pendingMark
  by_cases hglue : (glue && flow.hasWords) = true
  · -- A glued word is placed first, and moved with the word before it if the line is too wide.
    obtain ⟨rfl, hw⟩ := Bool.and_eq_true_iff.1 hglue
    rw [addWord_glued hw, hunmarked, h.pendingMark, List.nil_append]
    have hplaced := h.shows.place hne hword
    have hstay : (flow.place word).Traced (inks ++ word.map (⟨·, flow.styles.active⟩)) :=
      ⟨hplaced, fun hm => (h.marked hm).place word, h.context, h.pendingMark, h.continuation,
        fun hw' => absurd hw'.symm Bool.false_ne_true⟩
    by_cases hmovable : (flow.place word).wordMovable = true
    · by_cases hwidth : (Text.width (flow.place word).current : Int) ≤ settings.maxWidth
      · rw [fitWord_stay hwidth]
        exact hstay
      · rw [fitWord_move (by omega) hmovable]
        exact ⟨hplaced.moveWord ((h.marked hmovable).place word) htitle h.continuation,
          fun hm => absurd hm Bool.false_ne_true, h.context, h.pendingMark, h.continuation,
          fun hw' => absurd hw'.symm Bool.false_ne_true⟩
    · rw [fitWord_alone (by simpa using hmovable)]
      exact hstay
  · -- A fresh word is placed where room was made for it, and marks the place.
    rw [addWord_fresh (by simpa using hglue), hunmarked, h.beginLine, h.pendingMark,
      List.nil_append]
    obtain ⟨hcontext, hstyles, hmark, hcontinuation⟩ := makeRoom_frame settings flow word
    obtain ⟨hshows, hmarked⟩ := (h.shows.makeRoom htitle h.continuation).startWord
    have hplaced := hshows.place hne hword
    have hstyles' : (flow.makeRoom settings word).startWord.styles = flow.styles := hstyles
    rw [hstyles'] at hplaced
    exact ⟨hplaced, fun _ => hmarked.place word, hcontext.trans h.context,
      hmark.trans h.pendingMark,
      hcontinuation.trans h.continuation, fun hw' => absurd hw'.symm Bool.false_ne_true⟩

/-- Words are laid out under the styles in force. -/
theorem Traced.addWords (settings : Settings) (ws : List Text) (h : flow.Traced inks)
    (hne : ∀ w ∈ ws, w ≠ [])
    (hw : ∀ w ∈ ws, ∀ c ∈ w, Text.isFlowBlank c = false) :
    (flow.addWords settings ws).Traced (inks ++ ws.flatten.map (⟨·, flow.styles.active⟩)) := by
  induction ws generalizing flow inks with
  | nil =>
    rw [List.flatten_nil, List.map_nil, List.append_nil]
    exact h
  | cons w ws ih =>
    have hfirst := h.addWord settings (hne w List.mem_cons_self)
      (hw w List.mem_cons_self) false
    have hrest := ih hfirst (fun v hv => hne v (List.mem_cons_of_mem _ hv))
      fun v hv => hw v (List.mem_cons_of_mem _ hv)
    -- A word leaves the styles as they are, so all words have those at the start.
    rw [addWord_styles, List.append_assoc, ← List.map_append] at hrest
    exact hrest

/-- Bookkeeping does not touch what is shown. -/
theorem Traced.quiet (h : flow.Traced inks) (styles : Stack) (notices : List Notice)
    (anchors : List (Text × Int)) (glue : Bool) :
    Traced { flow with styles, notices, glue, page := { flow.page with anchors } } inks :=
  ⟨⟨h.shows.char, h.shows.spans, h.shows.links, h.shows.spansEnd, h.shows.linksEnd, h.shows.solid⟩,
    h.marked, h.context, h.pendingMark, h.continuation, h.current⟩

/-- The visible characters of a text are those of its words. -/
theorem ofText_eq (frames : List Frame) (s : Text) :
    Ink.ofText frames s = (Text.words Text.isFlowBlank s).flatten.map (⟨·, frames⟩) := by
  rw [Ink.ofText, Text.words_flatten]

/-- **A text** is laid out under the styles in force, and leaves them as they are. -/
theorem Traced.addText (h : flow.Traced inks) (s : Text) :
    (flow.addText settings s).Traced (inks ++ Ink.ofText flow.styles.active s) ∧
      (flow.addText settings s).styles = flow.styles := by
  by_cases hs : s = []
  · subst hs
    exact ⟨by rwa [Ink.ofText, List.filter_nil, List.map_nil, List.append_nil], rfl⟩
  · have hne : ¬s.isEmpty = true := by simpa using hs
    unfold Flow.addText
    rw [if_neg hne, ofText_eq]
    cases hwords : Text.words Text.isFlowBlank s with
    | nil =>
      -- Blanks show nothing and only end the word before them.
      rw [List.flatten_nil, List.map_nil, List.append_nil]
      exact ⟨h.quiet flow.styles flow.notices flow.page.anchors false, rfl⟩
    | cons w ws =>
      have hmem : ∀ {v}, v ∈ w :: ws → v ∈ Text.words Text.isFlowBlank s := by
        intro v hv
        rwa [hwords]
      have hfirst := h.addWord settings
        (Text.ne_nil_of_mem_words (hmem List.mem_cons_self))
        (fun c hc => Text.letter_of_mem_words (hmem List.mem_cons_self) hc)
        (flow.glue && !startsBlank s)
      have hall := hfirst.addWords settings ws
        (fun v hv => Text.ne_nil_of_mem_words (hmem (List.mem_cons_of_mem _ hv)))
        fun v hv c hc => Text.letter_of_mem_words (hmem (List.mem_cons_of_mem _ hv)) hc
      rw [addWord_styles, List.append_assoc, ← List.map_append] at hall
      refine ⟨hall.quiet _ _ _ (!endsBlank s), ?_⟩
      show (Flow.addWords _ settings ws).styles = _
      rw [addWords_styles, addWord_styles]

/-- Outside all blocks, text goes to the lines. -/
theorem Traced.takesWords (h : flow.Traced inks) : flow.TakesWords := by
  constructor
  all_goals rw [h.context]

/-- **A token** shows its characters under the styles in force, and changes the styles as it
should. -/
theorem Traced.feed (h : flow.Traced inks) {token : Token} (htoken : token.IsInline settings) :
    (flow.feed settings token).Traced (inks ++ Ink.ofText flow.styles.active token.content) ∧
      (flow.feed settings token).styles = flow.styles.after settings token := by
  by_cases htag : ∀ s, token ≠ .text s
  · -- A tag changes the styles and nothing that is shown.
    obtain ⟨anchors, notices, hfeed⟩ := feed_tag h.takesWords htoken htag
    rw [hfeed, Token.content_eq_nil htag, Ink.ofText, List.filter_nil, List.map_nil,
      List.append_nil]
    exact ⟨h.quiet _ _ _ flow.glue, rfl⟩
  · obtain ⟨s, rfl⟩ : ∃ s, token = .text s := by simpa using htag
    have hcollect : flow.collectHeading s = flow := by
      have hheading : ¬flow.context.inHeading = true := by
        rw [h.context]
        decide
      rw [collectHeading, if_neg hheading]
    rw [feed_text h.takesWords, hcollect]
    exact h.addText s

/-- **A run on inline markup** shows the characters of its tokens, each under its styles. -/
theorem Traced.feedAll (tokens : List Token) (h : flow.Traced inks)
    (htokens : ∀ token ∈ tokens, token.IsInline settings) :
    (flow.feedAll settings tokens).Traced (inks ++ Token.inks settings flow.styles tokens) := by
  induction tokens generalizing flow inks with
  | nil =>
    rw [Token.inks, List.append_nil]
    exact h
  | cons token tokens ih =>
    obtain ⟨hfirst, hstyles⟩ := h.feed (htokens token List.mem_cons_self)
    -- The other tokens start from the styles that this one leaves.
    have hrest := ih hfirst fun other hother => htokens other (List.mem_cons_of_mem _ hother)
    rw [hstyles, List.append_assoc] at hrest
    exact hrest

/-! ## (4) The finished page -/

/-- At the start nothing is shown. -/
theorem traced_start : Traced {} [] :=
  ⟨⟨rfl, rfl, rfl, fun _ h => absurd h List.not_mem_nil, fun _ h => absurd h List.not_mem_nil,
      fun _ h => absurd h List.not_mem_nil⟩,
    fun h => absurd h Bool.false_ne_true, rfl, rfl, rfl, fun _ => rfl⟩

/-- Dropping the blank lines at the end drops no character. -/
theorem visible_dropTrailingBlanks (lines : List Line) :
    visible (dropTrailingBlanks lines) = visible lines := by
  obtain ⟨blanks, hsplit, hblanks⟩ := exists_dropTrailingBlanks_append lines
  conv_rhs => rw [hsplit, visible, visibleFrom_append, visibleFrom_blanks hblanks, List.append_nil]
  rfl

/-- Outside all blocks, a run ends with the current line. -/
theorem Traced.flush (h : flow.Traced inks) :
    (flow.flush settings).Shows inks ∧ (flow.flush settings).current = [] := by
  have hpre : ¬(flow.context.inPre && flow.preLineOpen) = true := by simp [h.context]
  have htable : ¬flow.context.table.inTable = true := by simp [h.context]
  -- Without preformatted text and tables only the line is left to be committed.
  unfold Flow.flush
  rw [if_neg hpre]
  dsimp only
  rw [if_neg htable]
  by_cases hempty : flow.current.isEmpty = true
  · rw [if_pos hempty]
    exact ⟨h.shows, by simpa using hempty⟩
  · rw [if_neg hempty]
    exact ⟨h.shows.commit (by rw [h.context]), rfl⟩

/-- The highlights of the finished page are the merged spans. -/
theorem highlights_run (settings : Settings) (tokens : List Token) :
    (run settings tokens).page.highlights =
      mergeSpans ((feedAll {} settings tokens).flush settings).spans := rfl

/-- **The finished page** shows the characters of the tokens, in order. Over each of them stand the
spans and links of its frames, and the highlights of the page are the merged spans. -/
theorem run_shows (tokens : List Token) (htokens : ∀ token ∈ tokens, token.IsInline settings) :
    ∃ spans, (run settings tokens).page.highlights = mergeSpans spans ∧
      Solid spans (visible (run settings tokens).page.lines) ∧
      List.Forall₂ (fun ink cell => ink.char = cell.char ∧
          ink.groups = (covering spans cell).map Span.group ∧
          ink.targets = (covering (run settings tokens).page.links cell).map Link.href)
        (Token.inks settings {} tokens) (visible (run settings tokens).page.lines) := by
  have hflush :
      ((feedAll {} settings tokens).flush settings).Shows (Token.inks settings {} tokens) ∧
        ((feedAll {} settings tokens).flush settings).current = [] :=
    (traced_start.feedAll tokens htokens).flush
  -- At the end every character is on the page, so that its cells are those of the state.
  obtain ⟨hshows, hcurrent⟩ := hflush
  have hcells : visible (run settings tokens).page.lines =
      ((feedAll {} settings tokens).flush settings).cells := by
    rw [cells_eq, hcurrent, textCells, List.append_nil]
    exact visible_dropTrailingBlanks _
  refine ⟨((feedAll {} settings tokens).flush settings).spans, highlights_run settings tokens,
    ?_, ?_⟩
  · rw [hcells]
    exact hshows.solid
  · rw [hcells]
    refine List.Forall₂.mp (fun _ _ hchar hrest => ⟨hchar, hrest⟩)
      (Lists.map_eq_map_iff.1 hshows.char.symm) ?_
    exact List.Forall₂.mp (fun _ _ hgroups htargets => ⟨hgroups, htargets⟩)
      (Lists.map_eq_map_iff.1 hshows.spans.symm)
      (Lists.map_eq_map_iff.1 hshows.links.symm)

/-- **Styles and links are complete.** Follow the visible characters of text within inline tags to
the finished page, in order. Each of them is painted with every group that the frames in force at it
ask for. The link at its column leads where the lowest link among these frames leads, and there is
none if none of them links anywhere. -/
theorem run_keeps_styles (settings : Settings) (tokens : List Token)
    (htokens : ∀ token ∈ tokens, token.IsInline settings) :
    let page := (run settings tokens).page
    List.Forall₂ (fun ink cell => ink.char = cell.char ∧
        (∀ group, Frame.AskFor ink.frames group →
          Painted page.highlights cell.line cell.col group) ∧
        (∀ href, (page.linkAt? cell.line cell.col).map Link.href = some href ↔
          Frame.LinkTo ink.frames href) ∧
        (page.linkAt? cell.line cell.col = none ↔ Frame.LinkNowhere ink.frames))
      (Token.inks settings {} tokens) (visible page.lines) := by
  intro page
  obtain ⟨spans, hhighlights, -, hcells⟩ := run_shows tokens htokens
  refine hcells.imp fun ink cell => ?_
  rintro ⟨hchar, hgroups, htargets⟩
  -- The link that is found is the first one over the character, and links are recorded in the order
  -- of the frames, the lowest first.
  have hlink : (page.linkAt? cell.line cell.col).map Link.href = ink.targets.head? := by
    rw [htargets, List.head?_map, covering, List.head?_filter]
    rfl
  refine ⟨hchar, fun group hgroup => ?_, fun href => ?_, ?_⟩
  -- A group that a frame asks for is that of a span, and merging leaves the span's columns painted.
  · have hgroup : group ∈ ink.groups := Frame.mem_groups_iff.2 hgroup
    rw [hgroups] at hgroup
    obtain ⟨span, hspan, rfl⟩ := List.mem_map.1 hgroup
    obtain ⟨hmem, hcovers⟩ := List.mem_filter.1 hspan
    obtain ⟨hline, hstart, hend⟩ := covers_iff.1 hcovers
    show Painted (run settings tokens).page.highlights cell.line cell.col span.group
    rw [hhighlights]
    exact Painted.mergeSpans ⟨span, hmem, hline, rfl, hstart, hend⟩
  · rw [hlink]
    exact Frame.head?_targets_eq_some_iff
  · rw [← Option.map_eq_none_iff (f := Link.href), hlink]
    exact Frame.head?_targets_eq_none_iff

/-- A word of three styles moves to the next line: its highlights and links move with it. Where two
links lie over each other, the outer one is found. -/
theorem run_keeps_styles_moved :
    let settings : Settings :=
      { maxWidth := 8, classStyles := [("note".toList, "Note".toList)] }
    let tokens : List Token :=
      [.text "one ".toList, .opening "b".toList [], .text "tw".toList,
        .opening "a".toList [⟨"href".toList, "x".toList⟩], .text "o".toList, .closing "b".toList,
        .opening "a".toList [⟨"href".toList, "y".toList⟩, ⟨"class".toList, "note".toList⟩],
        .text "three".toList, .closing "a".toList, .closing "a".toList, .text " 4".toList]
    let page := (run settings tokens).page
    (∀ token ∈ tokens, token.IsInline settings) ∧
      page.lines = ["one".toList, "twothree".toList, "4".toList] ∧
      page.highlights = [⟨1, 0, 3, "InkBold".toList⟩, ⟨1, 2, 8, "InkUnderlined".toList⟩,
        ⟨1, 3, 8, "Note".toList⟩] ∧
      page.links = [⟨1, 2, 3, "x".toList⟩, ⟨1, 3, 8, "x".toList⟩, ⟨1, 3, 8, "y".toList⟩] ∧
      (page.linkAt? 1 3).map Link.href = some "x".toList ∧ page.linkAt? 2 0 = none ∧
      List.Forall₂ (fun ink cell => ink.char = cell.char ∧
          (∀ group, Frame.AskFor ink.frames group →
            Painted page.highlights cell.line cell.col group) ∧
          (∀ href, (page.linkAt? cell.line cell.col).map Link.href = some href ↔
            Frame.LinkTo ink.frames href) ∧
          (page.linkAt? cell.line cell.col = none ↔ Frame.LinkNowhere ink.frames))
        (Token.inks settings {} tokens) (visible page.lines) := by
  intro settings tokens page
  have htokens : ∀ token ∈ tokens, token.IsInline settings := by decide
  have hspans : ((feedAll {} settings tokens).flush settings).spans =
      [⟨1, 0, 2, "InkBold".toList⟩, ⟨1, 2, 3, "InkBold".toList⟩,
        ⟨1, 2, 3, "InkUnderlined".toList⟩, ⟨1, 3, 8, "InkUnderlined".toList⟩,
        ⟨1, 3, 8, "InkUnderlined".toList⟩, ⟨1, 3, 8, "Note".toList⟩] := by decide +kernel
  have hhighlights : page.highlights = [⟨1, 0, 3, "InkBold".toList⟩,
      ⟨1, 2, 8, "InkUnderlined".toList⟩, ⟨1, 3, 8, "Note".toList⟩] := by
    rw [highlights_run, hspans, mergeSpans_of_pairwise (by decide) (by decide)]
    decide
  exact ⟨htokens, by decide +kernel, hhighlights, by decide +kernel, by decide +kernel,
    by decide +kernel, run_keeps_styles settings tokens htokens⟩

/-- Whether the character at a column of a line is laid out under a frame that asks for the given
group. -/
def StyledAt (inks : List Ink) (cells : List Cell) (line col : Int) (group : Group) : Prop :=
  ∃ p ∈ inks.zip cells, p.2.line = line ∧ p.2.col = col ∧ Frame.AskFor p.1.frames group

/-- **Styles are sound up to single columns.** If a highlight paints a visible character, then the
character was laid out under a frame with that group, or it stands alone between two characters of
its line that were. -/
theorem run_paints_styled (settings : Settings) (tokens : List Token)
    (htokens : ∀ token ∈ tokens, token.IsInline settings) :
    let page := (run settings tokens).page
    let styledAt := StyledAt (Token.inks settings {} tokens) (visible page.lines)
    (Token.inks settings {} tokens).map Ink.char = (visible page.lines).map Cell.char ∧
      ∀ cell ∈ visible page.lines, ∀ group, Painted page.highlights cell.line cell.col group →
        styledAt cell.line cell.col group ∨
          styledAt cell.line (cell.col - 1) group ∧ styledAt cell.line (cell.col + 1) group := by
  intro page styledAt
  obtain ⟨spans, hhighlights, hsolid, hcells⟩ := run_shows tokens htokens
  -- Before the spans are merged, every painted column shows a character of their group.
  have hstyled : ∀ line col group, Painted spans line col group → styledAt line col group := by
    rintro line col group ⟨span, hspan, rfl, rfl, hstart, hend⟩
    obtain ⟨cell, hcell, hline, rfl⟩ := (hsolid span hspan).2 col hstart hend
    obtain ⟨ink, hmem, -, hgroups, -⟩ := Lists.exists_mem_zip hcells hcell
    refine ⟨(ink, cell), hmem, hline, rfl, Frame.mem_groups_iff.1 ?_⟩
    show span.group ∈ ink.groups
    rw [hgroups]
    exact List.mem_map_of_mem (List.mem_filter.2 ⟨hspan, covers_iff.2 ⟨hline.symm, hstart, hend⟩⟩)
  refine ⟨?_, fun cell hcell group hpainted => ?_⟩
  · exact Lists.map_eq_map_iff.2 (hcells.imp fun _ _ h => h.1)
  · have hpainted' : Painted (mergeSpans spans) cell.line cell.col group := hhighlights ▸ hpainted
    exact (painted_of_mergeSpans (fun span hspan => (hsolid span hspan).1) hpainted').imp
      (hstyled _ _ _) fun ⟨hleft, hright⟩ => ⟨hstyled _ _ _ hleft, hstyled _ _ _ hright⟩

/-- In `<b>a</b>b<b>c</b>` the two bold characters are merged over the one between them. -/
theorem highlights_between :
    (run {} [.opening ['b'] [], .text ['a'], .closing ['b'], .text ['b'], .opening ['b'] [],
      .text ['c'], .closing ['b']]).page.highlights = [⟨0, 0, 3, "InkBold".toList⟩] := by
  have hspans : ((feedAll {} {} [.opening ['b'] [], .text ['a'], .closing ['b'], .text ['b'],
      .opening ['b'] [], .text ['c'], .closing ['b']]).flush {}).spans =
        [⟨0, 0, 1, "InkBold".toList⟩, ⟨0, 1 + 1, 3, "InkBold".toList⟩] := by decide +kernel
  rw [highlights_run, hspans]
  exact mergeSpans_apart (by decide) (by decide)

/-- A single column between two words of a group is painted even if it holds a character outside
that group, as in `<b>a</b>b<b>c</b>`. -/
theorem run_paints_between :
    ¬∀ (settings : Settings) (tokens : List Token), (∀ token ∈ tokens, token.IsInline settings) →
      ∀ cell ∈ visible (run settings tokens).page.lines, ∀ group,
        Painted (run settings tokens).page.highlights cell.line cell.col group →
          StyledAt (Token.inks settings {} tokens) (visible (run settings tokens).page.lines)
            cell.line cell.col group := by
  intro h
  have hstyled := h {}
    [.opening ['b'] [], .text ['a'], .closing ['b'], .text ['b'], .opening ['b'] [], .text ['c'],
      .closing ['b']]
    (by decide) ⟨0, 1, 'b'⟩ (by decide +kernel) "InkBold".toList
    ⟨⟨0, 0, 3, "InkBold".toList⟩, highlights_between ▸ List.mem_singleton_self _, rfl, rfl,
      by decide, by decide⟩
  unfold StyledAt at hstyled
  revert hstyled
  decide +kernel

/-- The character between two bold ones is painted, and both characters beside it are bold. -/
theorem run_paints_styled_between :
    let tokens : List Token :=
      [.opening ['b'] [], .text ['a'], .closing ['b'], .text ['b'], .opening ['b'] [], .text ['c'],
        .closing ['b']]
    let page := (run {} tokens).page
    let styledAt := StyledAt (Token.inks {} {} tokens) (visible page.lines)
    (∀ token ∈ tokens, token.IsInline {}) ∧
      Painted page.highlights 0 1 "InkBold".toList ∧
        (styledAt 0 1 "InkBold".toList ∨
          styledAt 0 (1 - 1) "InkBold".toList ∧ styledAt 0 (1 + 1) "InkBold".toList) := by
  intro tokens page styledAt
  have htokens : ∀ token ∈ tokens, token.IsInline {} := by decide
  have hpainted : Painted page.highlights 0 1 "InkBold".toList :=
    ⟨⟨0, 0, 3, "InkBold".toList⟩, highlights_between ▸ List.mem_singleton_self _, rfl, rfl,
      by decide, by decide⟩
  exact ⟨htokens, hpainted, (run_paints_styled {} tokens htokens).2 ⟨0, 1, 'b'⟩
    (by decide +kernel) "InkBold".toList hpainted⟩

end Flow

end ChapterLayout
