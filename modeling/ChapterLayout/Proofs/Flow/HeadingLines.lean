import ChapterLayout.Proofs.Flow.LineKind
import ChapterLayout.Proofs.Flow.Parts
import ChapterLayout.Proofs.Flow.Regular

/-! # The lines of headings

A heading is recorded with the line it starts on, and only if it holds a word. Outside tables that
word is laid out on that line or behind it, so that the line stays on the page when blank lines are
removed at its end. Inside a table the word may be lost, and the line with it:

* **`Flow.Showing`** — whether there is text from a line on, on the page or on the line that is
  being filled;
* **`Flow.HeadingsShown`** — what a state knows of the headings and of the one that is open;
* **`Flow.run_headings`** — if no heading has text inside a table, every heading starts on a line of
  the page. -/

namespace ChapterLayout

/-! ## (1) Texts with a word -/

namespace Text

variable {c : Char} {s : Text}

/-- A text whose words are kept when its blanks are squeezed holds a letter. -/
theorem exists_of_squeeze_ne_nil (h : squeeze s ≠ []) : ∃ c ∈ s, isBlank c = false := by
  by_contra hnone
  refine h ?_
  have hwords : words isBlank s = [] := words_eq_nil_iff.2 fun c hc => by
    by_contra hletter
    exact hnone ⟨c, hc, by simpa using hletter⟩
  rw [squeeze, hwords]
  rfl

/-- The blanks between words are blanks in the wide sense. -/
theorem isFlowBlank_of_letter (h : isBlank c = false) : isFlowBlank c = false := by
  by_contra hblank
  rw [Bool.not_eq_false, isFlowBlank, Bool.or_eq_true, beq_iff_eq] at hblank
  rcases hblank with rfl | hcode
  · cases h
  · simp [isBlank, hcode] at h

/-- Every character but the separator is in a piece. -/
theorem exists_mem_splitOn {sep : Char} (hc : c ∈ s) (hne : c ≠ sep) :
    ∃ piece ∈ splitOn sep s, c ∈ piece := by
  induction s with
  | nil => cases hc
  | cons d s ih =>
    obtain ⟨q, qs, hs⟩ := exists_splitOn sep s
    by_cases hd : d = sep
    · rw [hd, splitOn_cons_self]
      rcases List.mem_cons.1 hc with rfl | hc
      · exact absurd hd hne
      · obtain ⟨piece, hpiece, hmem⟩ := ih hc
        exact ⟨piece, List.mem_cons_of_mem _ hpiece, hmem⟩
    · rw [splitOn_cons_of_ne hd hs]
      rcases List.mem_cons.1 hc with rfl | hc
      · exact ⟨_, List.mem_cons_self, List.mem_cons_self⟩
      · obtain ⟨piece, hpiece, hmem⟩ := ih hc
        rw [hs] at hpiece
        rcases List.mem_cons.1 hpiece with rfl | hpiece
        · exact ⟨_, List.mem_cons_self, List.mem_cons_of_mem _ hmem⟩
        · exact ⟨piece, List.mem_cons_of_mem _ hpiece, hmem⟩

/-- Every character but carriage returns stays when all line breaks are line feeds. -/
theorem mem_unifyNewlines (hc : c ∈ s) (hne : c ≠ '\r') : c ∈ unifyNewlines s := by
  fun_induction unifyNewlines s with
  | case1 => cases hc
  | case2 s ih =>
    rcases List.mem_cons.1 hc with rfl | hc
    · exact absurd rfl hne
    · rcases List.mem_cons.1 hc with rfl | hc
      · exact List.mem_cons_self
      · exact List.mem_cons_of_mem _ (ih hc)
  | case3 s _ ih =>
    rcases List.mem_cons.1 hc with rfl | hc
    · exact absurd rfl hne
    · exact List.mem_cons_of_mem _ (ih hc)
  | case4 d s _ _ ih =>
    rcases List.mem_cons.1 hc with rfl | hc
    · exact List.mem_cons_self
    · exact List.mem_cons_of_mem _ (ih hc)

end Text

namespace Flow

variable {settings : Settings} {flow flow' acted a b c : Flow} {token : Token}
  {apart : List Line} {k : Nat} {s : Text}

/-- A letter of preformatted text is in one of its pieces. -/
theorem exists_mem_prePieces (flow : Flow) {c : Char} (hc : c ∈ s)
    (hletter : Text.isBlank c = false) : ∃ piece ∈ flow.prePieces s, piece ≠ [] := by
  have hbreak : c ≠ '\n' ∧ c ≠ '\r' := by
    constructor <;> rintro rfl <;> cases hletter
  have hkept : c ∈ (if flow.preFresh then dropFirstBreak s else s) := by
    split
    · unfold dropFirstBreak
      split
      · rename_i t
        simpa [hbreak.1, hbreak.2] using hc
      · rename_i t
        simpa [hbreak.1] using hc
      · exact hc
    · exact hc
  obtain ⟨piece, hpiece, hmem⟩ :=
    Text.exists_mem_splitOn (Text.mem_unifyNewlines hkept hbreak.2) hbreak.1
  exact ⟨piece, hpiece, List.ne_nil_of_mem hmem⟩

/-! ## (2) Text from a line on -/

/-- Whether there is text from line `k` on, on the page or on the line that is being filled. -/
def Showing (flow : Flow) (k : Nat) : Prop :=
  (∃ n line, k ≤ n ∧ flow.page.lines[n]? = some line ∧ line ≠ []) ∨
    k ≤ flow.lineIndex ∧ (flow.hasWords = true ∨
      flow.context.inPre = true ∧ flow.preLineOpen = true ∧ flow.current ≠ [])

/-- A line that is put on the page with text on it. -/
theorem showing_of_line {line : Line} (hlines : b.page.lines = a.page.lines ++ [line])
    (hk : k ≤ a.lineIndex) (hne : line ≠ []) : b.Showing k := by
  refine .inl ⟨a.lineIndex, line, hk, ?_, hne⟩
  rw [hlines, lineIndex, List.getElem?_append_right (Nat.le_refl _), Nat.sub_self]
  rfl

/-- **Changes** take no text away. -/
theorem Showing.change (hc : Change settings a b) (hbegun : a.Begun settings) (h : a.Showing k) :
    b.Showing k := by
  have hgrow := hc.grows.lines
  rcases h with ⟨n, line, hn, hline, hne⟩ | ⟨hk, hopen⟩
  -- A line of the page is still there, since the page only grows at its end.
  · obtain ⟨new, hnew⟩ := hgrow
    refine .inl ⟨n, line, hn, ?_, hne⟩
    rw [← hnew, List.getElem?_append_left (List.getElem?_eq_some_iff.1 hline).1]
    exact hline
  -- The line that is being filled holds text, so whatever acts on an empty line is excluded.
  · have hcurrent : a.current ≠ [] := by
      rcases hopen with hw | ⟨-, -, hne⟩
      · exact (hbegun.word hw).2.current_ne_nil
      · exact hne
    -- What is left is to follow that line: it stays, gets more text, or goes to the page.
    have hk' : k ≤ b.lineIndex := Nat.le_trans hk hgrow.length_le
    cases hc with
    | quiet => exact .inr ⟨hk, hopen⟩
    | anchor attributes =>
      obtain ⟨anchors, hanchors⟩ := exists_recordAnchor a attributes
      rw [hanchors]
      exact .inr ⟨hk, hopen⟩
    | heading => exact .inr ⟨hk, hopen⟩
    | headingLine => exact .inr ⟨hk, hopen⟩
    | pendingMark => exact .inr ⟨hk, hopen⟩
    | commit => exact showing_of_line rfl hk hcurrent
    | blank hnil => exact absurd hnil hcurrent
    | reset hnil => exact absurd hnil hcurrent
    | block hnil => exact absurd hnil hcurrent
    | leavePre hclosed =>
      rcases hopen with hw | ⟨-, hpre, -⟩
      · exact .inr ⟨hk, .inl hw⟩
      · exact absurd hpre (by simp [hclosed])
    | item hnil => exact absurd hnil hcurrent
    | word hpre word hne hword glue =>
      exact .inr ⟨hk', .inl (holdsWord_addWord hbegun.pendingMark (fun hw => (hbegun.word hw).2) hne
        hword).hasWords⟩
    | codeEnd hw => exact .inr ⟨hk', .inl (hbegun.word hw).2.atCodeEnd.fitWord.hasWords⟩
    | piece hpre piece hne =>
      rw [addPiece_of_ne_nil hne]
      exact .inr ⟨hk, .inr ⟨hpre, rfl, List.append_ne_nil_of_right_ne_nil _ hne⟩⟩
    | commitPre hpre =>
      have hopen : a.preLineOpen = true := by
        rcases hopen with hw | ⟨-, hopen, -⟩
        · exact absurd hw (by simp [hbegun.hasWords_of_inPre hpre])
        · exact hopen
      obtain ⟨page, spans, heq, hlines⟩ := exists_commitPre_lines settings a
      rw [heq]
      refine showing_of_line hlines hk ?_
      rwa [preStart, if_pos hopen]
    | image hnil => exact absurd hnil hcurrent
    | rule hnil => exact absurd hnil hcurrent
    | tableLine hnil => exact absurd hnil hcurrent

/-- Text from a line on stays there when the state changes. -/
theorem Showing.changes (h : a.Showing k) (hbegun : a.Begun settings)
    (hc : Changes settings a b) : b.Showing k := by
  induction hc with
  | refl => exact h
  | tail hab hbc ih => exact ih.change hbc (hbegun.changes hab)

/-- **Flow text with a letter** shows on the line that is being filled or behind it. -/
theorem Begun.showing_addText (h : flow.Begun settings) (hpre : flow.context.inPre = false)
    {c : Char} (hc : c ∈ s) (hletter : Text.isBlank c = false) (hk : k ≤ flow.lineIndex) :
    (flow.addText settings s).Showing k := by
  obtain ⟨rfl, -⟩ | ⟨hnil, -⟩ | ⟨w, words, hne, hletters, heq⟩ := addText_cases settings flow s
  · cases hc
  · have hblank := Text.words_eq_nil_iff.1 hnil c hc
    exact absurd hblank (by simp [Text.isFlowBlank_of_letter hletter])
  · have hw := hne w List.mem_cons_self
    have hwletters := hletters w List.mem_cons_self
    have hfirst : Change settings flow (flow.addWord settings w (flow.glue && !startsBlank s)) :=
      .word flow hpre w hw hwletters _
    -- The first word is on the line, and nothing that follows takes it away.
    have hshowing : (flow.addWord settings w (flow.glue && !startsBlank s)).Showing k := by
      refine .inr ⟨Nat.le_trans hk hfirst.grows.lines.length_le, .inl ?_⟩
      exact (holdsWord_addWord h.pendingMark (fun hw => (h.word hw).2) hw hwletters).hasWords
    have hwords : Changes settings (flow.addWord settings w (flow.glue && !startsBlank s))
        ((flow.addWord settings w (flow.glue && !startsBlank s)).addWords settings words) := by
      refine addWords_preserves ?_ words (fun v hv => hne v (List.mem_cons_of_mem _ hv))
        (fun v hv => hletters v (List.mem_cons_of_mem _ hv)) (addWord_context _ _ _)
        Relation.ReflTransGen.refl
      intro a v glue hcontext hv hvletters hchanges
      exact hchanges.tail (.word a (hcontext ▸ hpre) v hv hvletters glue)
    rw [heq]
    exact hshowing.changes (h.change hfirst) (hwords.tail (.glue _ _))

/-- A piece with text shows on its line. -/
theorem showing_addPiece (flow : Flow) (hpre : flow.context.inPre = true) {piece : Text}
    (hne : piece ≠ []) (hk : k ≤ flow.lineIndex) : (flow.addPiece settings piece).Showing k := by
  rw [addPiece_of_ne_nil hne]
  exact .inr ⟨hk, .inr ⟨hpre, rfl, List.append_ne_nil_of_right_ne_nil _ hne⟩⟩

/-- Preformatted text leaves text from line `k` on, if there was some or a piece of it is not empty.
-/
theorem Begun.showing_addPieces (pieces : List Text) (h : flow.Begun settings)
    (hpre : flow.context.inPre = true) (hp : ∀ q ∈ pieces, '\n' ∉ q ∧ '\r' ∉ q)
    (hk : k ≤ flow.lineIndex) (hsome : flow.Showing k ∨ ∃ q ∈ pieces, q ≠ []) :
    (pieces.foldl (fun flow q => (flow.commitPre settings).addPiece settings q) flow).Showing
      k := by
  induction pieces generalizing flow with
  | nil =>
    rcases hsome with hshowing | ⟨q, hq, -⟩
    · exact hshowing
    · cases hq
  | cons q pieces ih =>
    have hcommit : Change settings flow (flow.commitPre settings) := .commitPre flow hpre
    have hpre' : (flow.commitPre settings).context.inPre = true := by simpa using hpre
    have hk' : k ≤ (flow.commitPre settings).lineIndex :=
      Nat.le_trans hk hcommit.grows.lines.length_le
    have hpiece : Changes settings (flow.commitPre settings)
        ((flow.commitPre settings).addPiece settings q) :=
      addPiece_changes _ hpre' q (hp q List.mem_cons_self)
    have hbegun := (h.change hcommit).changes hpiece
    refine ih hbegun (by simpa using hpre) (fun r hr => hp r (List.mem_cons_of_mem _ hr))
      (Nat.le_trans hk' hpiece.lines_grow.length_le) ?_
    -- The text is shown before the piece, or by the piece itself, or by one behind it.
    rcases hsome with hshowing | ⟨r, hr, hne⟩
    · exact .inl ((hshowing.change hcommit h).changes (h.change hcommit) hpiece)
    · rcases List.mem_cons.1 hr with rfl | hr
      · exact .inl (showing_addPiece _ hpre' hne hk')
      · exact .inr ⟨r, hr, hne⟩

/-- **Preformatted text with a letter** shows on the line that is open or behind it. -/
theorem Begun.showing_addPre (h : flow.Begun settings) (hpre : flow.context.inPre = true)
    {c : Char} (hc : c ∈ s) (hletter : Text.isBlank c = false) (hk : k ≤ flow.lineIndex) :
    (flow.addPre settings s).Showing k := by
  have hbreak : ∀ q ∈ flow.prePieces s, '\n' ∉ q ∧ '\r' ∉ q := fun q hq =>
    Text.no_break_of_mem_lines hq
  -- Only the first piece is put down in a state that is fresh, so it is looked at on its own.
  have hfresh : Change settings flow { flow with preFresh := flow.preFresh && s.isEmpty } :=
    .quiet flow _ _ _ _ _ _ _ _ _ _ _
  obtain ⟨piece, hpiece, hne⟩ := exists_mem_prePieces flow hc hletter
  unfold addPre
  cases hpieces : flow.prePieces s with
  -- Some piece is not empty, so that there are pieces.
  | nil =>
    rw [hpieces] at hpiece
    cases hpiece
  | cons q pieces =>
    rw [hpieces] at hpiece hbreak
    have hfirst : Changes settings { flow with preFresh := flow.preFresh && s.isEmpty }
        ({ flow with preFresh := flow.preFresh && s.isEmpty }.addPiece settings q) :=
      addPiece_changes { flow with preFresh := flow.preFresh && s.isEmpty } hpre q
        (hbreak q List.mem_cons_self)
    refine Begun.showing_addPieces pieces ((h.change hfresh).changes hfirst) ?_
      (fun r hr => hbreak r (List.mem_cons_of_mem _ hr))
      (Nat.le_trans hk hfirst.lines_grow.length_le) ?_
    · rw [addPiece_context]
      exact hpre
    -- The piece with the character is the first one or one of the others.
    · rcases List.mem_cons.1 hpiece with rfl | hpiece
      · exact .inl (showing_addPiece { flow with preFresh := flow.preFresh && s.isEmpty } hpre hne
          hk)
      · exact .inr ⟨piece, hpiece, hne⟩

/-! ## (3) Headings -/

/-- What a state knows of the headings: each that is recorded shows from its line on, and so does
the open one once it holds a letter. -/
structure HeadingsShown (settings : Settings) (flow : Flow) : Prop where
  begun : flow.Begun settings
  recorded : ∀ h ∈ flow.page.headings, ∃ k : Nat, h.line = k ∧ flow.Showing k
  start : flow.headingLine ≤ flow.lineIndex
  letter : ∀ c ∈ flow.context.headingText, Text.isBlank c = false →
    flow.Showing flow.headingLine

/-- Changes that record no heading keep what is known. -/
theorem HeadingsShown.keep (h : HeadingsShown settings a) (hc : Changes settings a b)
    (hsame : SameHeadings a b) : HeadingsShown settings b := by
  constructor
  · exact h.begun.changes hc
  · intro heading hmem
    rw [hsame.headings] at hmem
    obtain ⟨k, hk, hshowing⟩ := h.recorded heading hmem
    exact ⟨k, hk, hshowing.changes h.begun hc⟩
  · rw [hsame.headingLine]
    exact Nat.le_trans h.start hc.lines_grow.length_le
  · intro c hmem hletter
    rw [hsame.headingText] at hmem
    rw [hsame.headingLine]
    exact (h.letter c hmem hletter).changes h.begun hc

/-- Text is collected for the open heading, and nothing else is changed. -/
theorem collectHeading_frame (flow : Flow) (s : Text) :
    (flow.collectHeading s).page = flow.page ∧
      (flow.collectHeading s).headingLine = flow.headingLine ∧
      ∀ c ∈ (flow.collectHeading s).context.headingText, c ∈ flow.context.headingText ∨ c ∈ s := by
  unfold collectHeading
  split
  · exact ⟨rfl, rfl, fun c hc => List.mem_append.1 hc⟩
  · exact ⟨rfl, rfl, fun c hc => .inl hc⟩

/-- Whether a token is no text that comes while both a heading and a table are open. -/
def keepsApart (flow : Flow) : Token → Bool
  | .text _ => !(flow.context.table.inTable && flow.context.inHeading)
  | _ => true

/-- **Text that is collected** for the open heading is laid out by an operation that records no
heading. -/
theorem HeadingsShown.collect {next : Flow} (h : HeadingsShown settings flow)
    (hc : Changes settings (flow.collectHeading s) next)
    (hsame : SameHeadings (flow.collectHeading s) next)
    (hshowing : ∀ c ∈ s, Text.isBlank c = false → next.Showing flow.headingLine) :
    HeadingsShown settings next := by
  obtain ⟨hpage, hheadingLine, hcollected⟩ := collectHeading_frame flow s
  have hall : Changes settings flow next := (collectHeading_changes flow s).trans hc
  constructor
  · exact h.begun.changes hall
  · intro heading hmem
    rw [hsame.headings, hpage] at hmem
    obtain ⟨k, hk, hshown⟩ := h.recorded heading hmem
    exact ⟨k, hk, hshown.changes h.begun hall⟩
  · rw [hsame.headingLine, hheadingLine]
    exact Nat.le_trans h.start hall.lines_grow.length_le
  · intro c hmem hletter
    rw [hsame.headingText] at hmem
    rw [hsame.headingLine, hheadingLine]
    rcases hcollected c hmem with hmem | hmem
    · exact (h.letter c hmem hletter).changes h.begun hall
    · exact hshowing c hmem hletter

/-- **Text** in an open heading shows on the line of the heading or behind it. -/
theorem HeadingsShown.feedText (h : HeadingsShown settings flow) (s : Text)
    (hapart : flow.keepsApart (.text s) = true) :
    HeadingsShown settings (flow.feedText settings s) := by
  have hcollect : Changes settings flow (flow.collectHeading s) := collectHeading_changes flow s
  have hbegun := h.begun.changes hcollect
  have hstart : flow.headingLine ≤ (flow.collectHeading s).lineIndex :=
    Nat.le_trans h.start hcollect.lines_grow.length_le
  rw [feedText_eq]
  split
  · exact h
  · split
    · -- In a table no heading is open, so that nothing is collected.
      rename_i hin
      have hclosed : flow.collectHeading s = flow := by
        have hheading : flow.context.inHeading = false := by
          simpa [keepsApart, hin] using hapart
        rw [collectHeading, if_neg (by simp [hheading])]
      rw [hclosed]
      split
      · exact h.keep (Change.table flow _).chain ⟨rfl, rfl, rfl⟩
      · exact h
    split
    · rename_i hpre
      have hpre' : (flow.collectHeading s).context.inPre = true := by simpa using hpre
      exact h.collect (addPre_changes _ hpre' s) ((leadsOnlyTo_addPre _ s).same_all .headings)
        fun c hc hletter => hbegun.showing_addPre hpre' hc hletter hstart
    · rename_i hpre
      have hpre' : (flow.collectHeading s).context.inPre = false := by simpa using hpre
      exact h.collect (addText_changes _ hpre' s) ((leadsOnlyTo_addText _ s).same_all .headings)
        fun c hc hletter => hbegun.showing_addText hpre' hc hletter hstart

/-- **A line is ended** without a heading. -/
theorem HeadingsShown.newLine (h : HeadingsShown settings flow) :
    HeadingsShown settings flow.newLine :=
  h.keep (newLine_changes flow) ((leadsOnlyTo_newLine flow).same_all .headings)

/-- Between two lines the text of the open heading is forgotten. -/
theorem HeadingsShown.clear (h : HeadingsShown settings flow) {f : BlockContext → BlockContext}
    (hf : ∀ context, (f context).headingText = []) :
    HeadingsShown settings (flow.newLine.updateContext f) := by
  have hc : Changes settings flow.newLine (flow.newLine.updateContext f) :=
    (Change.block _ (newLine_current flow) _ _ _).chain
  constructor
  · exact h.newLine.begun.changes hc
  · intro heading hmem
    obtain ⟨k, hk, hshowing⟩ := h.newLine.recorded heading hmem
    exact ⟨k, hk, hshowing.changes h.newLine.begun hc⟩
  · exact h.newLine.start
  · intro c hmem
    rw [updateContext, hf] at hmem
    exact absurd hmem List.not_mem_nil

/-- **Opening a heading** begins a new one. -/
theorem HeadingsShown.openHeading (h : HeadingsShown settings flow) (level : Nat) :
    HeadingsShown settings (flow.openBlock settings (.heading level)) := by
  have hclear : HeadingsShown settings (flow.newLine.updateContext
      ({ · with headingLevel := level, headingText := [] })) := h.clear fun _ => rfl
  have hc : Changes settings (flow.newLine.updateContext
      ({ · with headingLevel := level, headingText := [] }))
        (flow.openBlock settings (.heading level)) := (Change.headingLine _).chain
  constructor
  · exact hclear.begun.changes hc
  · intro heading hmem
    obtain ⟨k, hk, hshowing⟩ := hclear.recorded heading hmem
    exact ⟨k, hk, hshowing.changes hclear.begun hc⟩
  · exact Nat.le_refl _
  · exact fun c hmem => absurd hmem List.not_mem_nil

/-- **Closing a heading** records it if it holds a word, which shows from its line on. -/
theorem HeadingsShown.closeHeading (h : HeadingsShown settings flow) :
    HeadingsShown settings flow.closeHeading := by
  have hline := h.newLine
  have hc : Changes settings flow.newLine flow.closeHeading := recordHeading_changes flow
  -- The heading ends the line before it is recorded, and what showed before still shows.
  have hkept : ∀ {k}, flow.newLine.Showing k → flow.closeHeading.Showing k :=
    fun hshowing => hshowing.changes hline.begun hc
  constructor
  · exact hline.begun.changes hc
  · intro heading hmem
    have hmem : heading ∈ (if flow.newLine.context.inHeading &&
          !(Text.squeeze flow.newLine.context.headingText).isEmpty then
        flow.newLine.page.headings ++ [⟨flow.newLine.context.headingLevel,
          Text.squeeze flow.newLine.context.headingText, flow.newLine.headingLine⟩]
      else flow.newLine.page.headings) := hmem
    have hold : heading ∈ flow.newLine.page.headings →
        ∃ k : Nat, heading.line = k ∧ flow.closeHeading.Showing k := by
      intro hmem
      obtain ⟨k, hk, hshowing⟩ := hline.recorded heading hmem
      exact ⟨k, hk, hkept hshowing⟩
    split at hmem
    · rename_i hword
      rcases List.mem_append.1 hmem with hmem | hmem
      -- Headings that were recorded before keep their lines.
      · exact hold hmem
      -- The one that is recorded now has a letter in its text, and that letter is shown.
      · obtain rfl := List.mem_singleton.1 hmem
        have hne : Text.squeeze flow.newLine.context.headingText ≠ [] := by
          simpa using (Bool.and_eq_true_iff.1 hword).2
        obtain ⟨c, hc, hletter⟩ := Text.exists_of_squeeze_ne_nil hne
        exact ⟨flow.newLine.headingLine, rfl, hkept (hline.letter c hc hletter)⟩
    · exact hold hmem
  · exact hline.start
  · exact fun c hmem => absurd hmem List.not_mem_nil

/-- **Operations** keep what is known of the headings, unless they feed text to a heading in a
table. -/
theorem HeadingsShown.perform (h : HeadingsShown settings flow) {operation : Operation}
    (hapart : ∀ s, operation = .text s → flow.keepsApart (.text s) = true) :
    HeadingsShown settings (flow.perform settings operation) := by
  by_cases htouched : .headings ∈ operation.touched
  · cases operation with
    | text s => exact h.feedText s (hapart s rfl)
    | enter role =>
      cases role with
      | heading level => exact h.clear fun _ => rfl
      | _ => simp [Operation.touched, TagRole.touched] at htouched
    | leave role =>
      cases role with
      | heading level => exact h.clear fun _ => rfl
      | _ => simp [Operation.touched, TagRole.touched] at htouched
    | openHeading level => exact h.openHeading level
    | closeHeading => exact h.closeHeading
    | _ => simp [Operation.touched] at htouched
  · exact h.keep (perform_changes flow operation) (perform_same .headings settings flow htouched)

/-- Only a text is laid out as text. -/
theorem eq_of_text_mem_operations (h : .text s ∈ token.operations) : token = .text s := by
  cases token with
  | text t => simpa [Token.operations, eq_comm] using h
  | opening name attributes =>
    cases hrole : TagRole.ofName name <;> simp [Token.operations, hrole, TagRole.opening] at h
  | closing name =>
    cases hrole : TagRole.ofName name <;> simp [Token.operations, hrole, TagRole.closing] at h
  | empty name attributes =>
    revert h
    rw [Token.operations, emptyOperations]
    split_ifs <;> simp

/-- **A token** keeps what is known of the headings, unless it is text of a heading in a table. -/
theorem HeadingsShown.feed (h : HeadingsShown settings flow)
    (hapart : flow.keepsApart token = true) :
    HeadingsShown settings (flow.feed settings token) := by
  by_cases htext : ∃ s, token = .text s
  · obtain ⟨s, rfl⟩ := htext
    exact h.feedText s hapart
  · refine feed_related (R := fun a b => HeadingsShown settings a → HeadingsShown settings b)
      (fun _ => id) (fun hab hbc ha => hbc (hab ha)) (fun operation hmem flow h => ?_) flow h
    refine h.perform fun s hs => ?_
    subst hs
    exact absurd ⟨s, eq_of_text_mem_operations hmem⟩ htext

/-- Whether no heading has text inside a table, in the tokens that come after a state. -/
def headingsApart (settings : Settings) : Flow → List Token → Bool
  | _, [] => true
  | flow, token :: tokens =>
    flow.keepsApart token && headingsApart settings (flow.feed settings token) tokens

/-- **Tokens** keep what is known of the headings, if no heading has text inside a table. -/
theorem HeadingsShown.feedAll (tokens : List Token) (h : HeadingsShown settings flow)
    (hapart : headingsApart settings flow tokens = true) :
    HeadingsShown settings (flow.feedAll settings tokens) := by
  induction tokens generalizing flow with
  | nil => exact h
  | cons token tokens ih =>
    obtain ⟨hfirst, hrest⟩ := Bool.and_eq_true_iff.1 hapart
    exact ih (h.feed hfirst) hrest

/-! ## (4) Pages -/

/-- The end of a chapter records no heading. -/
theorem sameHeadings_flush (flow : Flow) : SameHeadings flow (flow.flush settings) := by
  have hend : SameHeadings flow (flow.flushPre settings) := by
    unfold flushPre
    split
    · exact (leadsOnlyTo_endPreLine flow).same_all .headings
    · exact ⟨rfl, rfl, rfl⟩
  by_cases hin : flow.context.table.inTable = true
  · obtain ⟨hrecords, hcontext⟩ := sameRecords_flushTable settings (flow.flushPre settings)
    rw [flush_of_inTable hin]
    exact ⟨hrecords.headings.trans hend.headings, hrecords.headingLine.trans hend.headingLine,
      (congrArg BlockContext.headingText hcontext).trans hend.headingText⟩
  · rw [flush_eq (by simpa using hin)]
    show SameHeadings flow (if (flow.flushPre settings).current.isEmpty then _ else _)
    split
    · exact hend
    · exact ⟨hend.headings, hend.headingLine, hend.headingText⟩

/-- When all lines are on the page, so is the text that shows. -/
theorem Begun.line_of_showing (h : flow.Begun settings) (hnil : flow.current = [])
    (hshowing : flow.Showing k) :
    ∃ n line, k ≤ n ∧ flow.page.lines[n]? = some line ∧ line ≠ [] := by
  rcases hshowing with hline | ⟨-, hw | ⟨-, -, hne⟩⟩
  · exact hline
  · exact absurd hnil (h.word hw).2.current_ne_nil
  · exact absurd hnil hne

/-- **Every heading starts on a line of the page,** if no heading has text inside a table. -/
theorem run_headings (settings : Settings) (tokens : List Token)
    (hapart : headingsApart settings {} tokens = true) :
    ∀ h ∈ (run settings tokens).page.headings,
      ∃ k : Nat, h.line = k ∧ k < (run settings tokens).page.lines.length := by
  have hstart : HeadingsShown settings ({} : Flow) :=
    ⟨begun_of_empty (.inl rfl) rfl rfl, fun _ h => absurd h List.not_mem_nil, Nat.le_refl _,
      fun _ h => absurd h List.not_mem_nil⟩
  have hflushed : HeadingsShown settings ((feedAll {} settings tokens).flush settings) :=
    (hstart.feedAll tokens hapart).keep (flush_changes _) (sameHeadings_flush _)
  intro heading hmem
  obtain ⟨k, hk, hshowing⟩ := hflushed.recorded heading hmem
  obtain ⟨n, line, hn, hline, hne⟩ :=
    hflushed.begun.line_of_showing (flush_current settings _) hshowing
  exact ⟨k, hk, Nat.lt_of_le_of_lt hn (lt_length_dropTrailingBlanks hline hne)⟩

end Flow

end ChapterLayout
