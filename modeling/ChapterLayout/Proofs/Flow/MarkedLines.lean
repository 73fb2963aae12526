import ChapterLayout.Proofs.Flow.LineKind
import ChapterLayout.Proofs.Flow.Regular
import ChapterLayout.Proofs.Lists

/-! # Lines that are exempt or centred

A page marks lines by their numbers: those that keep their spacing, and those that are centred. A
line gets its marks when it is put on the page, and it has text on it then, unless it is a blank
line of preformatted text. Blank lines at the end of the page are removed, so only lines of
preformatted text can leave marks behind:

* **`Flow.NewMarks`** — which marks a step of the layout may set;
* **`Flow.newMarks_feed`**, **`Flow.newMarks_flush`** — tokens and the end of a chapter set no
  others;
* **`Flow.run_marks`** — every mark is on a line of the page, or on a line of preformatted text that
  was removed. -/

namespace ChapterLayout

/-- Whether a page marks a line as exempt or as centred. -/
def Page.Marks (page : Page) (i : Int) : Prop := i ∈ page.noJustify ∨ i ∈ page.centered

namespace Flow

variable {settings : Settings} {flow flow' mid acted a b c : Flow} {token : Token}
  {apart : List Line} {line : Line} {blank : Prop} {n : Nat} {i : Int} {word : Text}

/-! ## (1) Marks that a step sets -/

/-- Whether a step of the layout marks only lines that it puts on the page, and blank ones only if
`blank` holds. -/
structure NewMarks (blank : Prop) (a b : Flow) : Prop where
  lines : a.page.lines <+: b.page.lines
  marks : ∀ i, b.page.Marks i → a.page.Marks i ∨ ∃ n : Nat, i = n ∧ a.lineIndex ≤ n ∧
    ∃ line, b.page.lines[n]? = some line ∧ (line = [] → blank)

/-- A line stays where it is when the page grows. -/
theorem getElem?_of_grow {lines lines' : List Line} (h : lines <+: lines')
    (hline : lines[n]? = some line) : lines'[n]? = some line := by
  obtain ⟨new, rfl⟩ := h
  rw [List.getElem?_append_left (List.getElem?_eq_some_iff.1 hline).1]
  exact hline

/-- A step that sets no marks. -/
theorem newMarks_of_lines (hlines : a.page.lines <+: b.page.lines)
    (hmarks : ∀ i, b.page.Marks i → a.page.Marks i) : NewMarks blank a b :=
  ⟨hlines, fun i hi => .inl (hmarks i hi)⟩

/-- Nothing is marked. -/
theorem newMarks_refl (flow : Flow) : NewMarks blank flow flow :=
  newMarks_of_lines (List.prefix_refl _) fun _ => id

/-- Marks of two steps, each on lines that its step puts on the page. -/
theorem NewMarks.trans (hab : NewMarks blank a b) (hbc : NewMarks blank b c) :
    NewMarks blank a c := by
  refine ⟨hab.lines.trans hbc.lines, fun i hi => ?_⟩
  rcases hbc.marks i hi with hi | ⟨n, rfl, hn, hline⟩
  · rcases hab.marks i hi with hi | ⟨n, rfl, hn, line, hline, hblank⟩
    · exact .inl hi
    · exact .inr ⟨n, rfl, hn, line, getElem?_of_grow hbc.lines hline, hblank⟩
  · exact .inr ⟨n, rfl, Nat.le_trans hab.lines.length_le hn, hline⟩

/-- Blank lines may also be marked where more is allowed. -/
theorem NewMarks.mono {blank' : Prop} (h : NewMarks blank a b) (hblank : blank → blank') :
    NewMarks blank' a b := by
  refine ⟨h.lines, fun i hi => (h.marks i hi).imp id ?_⟩
  rintro ⟨n, rfl, hn, line, hline, hempty⟩
  exact ⟨n, rfl, hn, line, hline, fun hnil => hblank (hempty hnil)⟩

/-- A step that puts one line on the page, and may mark it. -/
theorem newMarks_of_line (hlines : b.page.lines = a.page.lines ++ [line])
    (hmarks : ∀ i, b.page.Marks i → a.page.Marks i ∨ i = a.lineIndex) (hblank : line = [] → blank) :
    NewMarks blank a b := by
  refine ⟨hlines ▸ List.prefix_append _ _, fun i hi => (hmarks i hi).imp id ?_⟩
  rintro rfl
  refine ⟨a.lineIndex, rfl, Nat.le_refl _, line, ?_, hblank⟩
  rw [hlines, lineIndex, List.getElem?_append_right (Nat.le_refl _), Nat.sub_self]
  rfl

/-- Putting the current line on the page marks this line at most. -/
theorem marks_commit (h : flow.commit.page.Marks i) : flow.page.Marks i ∨ i = flow.lineIndex := by
  have hset : ∀ {set : LineSet} {b : Bool}, i ∈ (if b then set.insert flow.lineIndex else set) →
      i ∈ set ∨ i = flow.lineIndex := by
    intro set b hi
    cases b with
    | true => exact (LineSet.mem_insert.1 hi).symm
    | false => exact .inl hi
  rcases h with h | h
  · exact (hset h).imp .inl id
  · exact (hset h).imp .inr id

/-- A committed line is not marked. -/
theorem newMarks_commit (hne : flow.current ≠ []) : NewMarks blank flow flow.commit :=
  newMarks_of_line rfl (fun _ => marks_commit) fun hnil => absurd hnil hne

/-- The end of a line marks nothing. -/
theorem newMarks_newLine (flow : Flow) : NewMarks blank flow flow.newLine := by
  by_cases hnil : flow.current = []
  · by_cases hend : flow.endsInText = true
    · rw [newLine_of_endsInText hnil hend]
      exact newMarks_of_lines (List.prefix_append _ _) fun _ => id
    · rw [newLine_of_not_endsInText hnil (by simpa using hend)]
      exact newMarks_of_lines (List.prefix_refl _) fun _ => id
  · rw [newLine_of_begun hnil]
    have hcommit : NewMarks blank flow flow.commit := newMarks_commit hnil
    exact ⟨hcommit.lines, hcommit.marks⟩

/-- A line that stands alone is marked as exempt. -/
theorem newMarks_commitBlock {s : Text} (hblank : s = [] → blank) (group : Group) :
    NewMarks blank flow (flow.commitBlock s group) := by
  refine newMarks_of_line rfl (fun i hi => ?_) hblank
  rcases hi with hi | hi
  · rcases LineSet.mem_insert.1 hi with rfl | hi
    · exact .inr rfl
    · exact marks_commit (.inl hi)
  · exact marks_commit (.inr hi)

/-- A line of a table is marked as it is put on the page. -/
theorem newMarks_tableLine (hblank : line = [] → blank) :
    NewMarks blank flow ((flow.exempt flow.lineIndex).addLine line) := by
  refine newMarks_of_line rfl (fun i hi => ?_) hblank
  rcases hi with hi | hi
  · rcases LineSet.mem_insert.1 hi with rfl | hi
    · exact .inr rfl
    · exact .inl (.inl hi)
  · exact .inl (.inr hi)

/-- The lines of a table are marked as exempt. -/
theorem newMarks_addTableLines (lines : List Line) (flow : Flow) (hne : ∀ line ∈ lines, line ≠ []) :
    NewMarks blank flow (flow.addTableLines lines) := by
  induction lines generalizing flow with
  | nil => exact newMarks_refl flow
  | cons line lines ih =>
    have hfirst : NewMarks blank flow ((flow.exempt flow.lineIndex).addLine line) :=
      newMarks_tableLine fun hnil => absurd hnil (hne line List.mem_cons_self)
    exact hfirst.trans (ih _ fun l hl => hne l (List.mem_cons_of_mem _ hl))

/-- **Housekeeping** marks no blank lines. -/
theorem Housekeeping.newMarks (h : Housekeeping a b) : NewMarks blank a b := by
  cases h with
  | quiet => exact newMarks_of_lines (List.prefix_refl _) fun _ => id
  | anchor attributes =>
    obtain ⟨anchors, hanchors⟩ := exists_recordAnchor a attributes
    rw [hanchors]
    exact newMarks_of_lines (List.prefix_refl _) fun _ => id
  | newLine => exact newMarks_newLine a
  | blanks => exact newMarks_of_lines (List.prefix_append _ _) fun _ => id
  | block => exact newMarks_of_lines (List.prefix_refl _) fun _ => id

/-- Housekeeping marks nothing. -/
theorem Housekeepings.newMarks (h : Housekeepings a b) : NewMarks blank a b := by
  induction h with
  | refl => exact newMarks_refl a
  | tail _ hbc ih => exact ih.trans hbc.newMarks

/-! ## (2) Words -/

/-- What stands before a word that can move is not blank. -/
theorem Worded.broken_ne_nil (h : flow.Worded settings) (hmovable : flow.wordMovable = true) :
    Text.trimRight Text.isSpace (flow.current.take flow.wordStart) ≠ [] := by
  obtain ⟨c, hc, hletter⟩ := h.backed hmovable
  obtain ⟨blanks, heq, hblanks⟩ :=
    Text.exists_trimRight_append (flow.current.take flow.wordStart)
  intro hnil
  rw [heq, hnil, List.nil_append] at hc
  exact absurd (hblanks c hc) (by simp [hletter])

/-- A word that moves leaves a line that holds a word. -/
theorem Worded.newMarks_fitWord (h : flow.Worded settings) :
    NewMarks blank flow (flow.fitWord settings) := by
  rw [fitWord_eq]
  split
  · exact newMarks_refl flow
  · rename_i hmoves
    have hmovable : flow.wordMovable = true := by
      simp only [Bool.or_eq_true, not_or, Bool.not_eq_true', Bool.not_eq_false] at hmoves
      exact hmoves.2
    have hbroken : NewMarks blank flow flow.broken :=
      newMarks_of_line rfl (fun _ hi => marks_commit hi) fun hnil =>
        absurd hnil (h.broken_ne_nil hmovable)
    exact ⟨hbroken.lines, hbroken.marks⟩

/-- **A word** marks a line that holds a word at most. -/
theorem Fitted.newMarks_addWord (h : flow.Fitted settings)
    (hword : ∀ c ∈ word, Text.isFlowBlank c = false) (glue : Bool) :
    NewMarks blank flow (flow.addWord settings word glue) := by
  by_cases hglue : (glue && flow.hasWords) = true
  · obtain ⟨rfl, hw⟩ := Bool.and_eq_true_iff.1 hglue
    rw [addWord_glued hw]
    have hletters := mark_isLetter h.begun.pendingMark hword
    have hworded : (flow.unmarked.place (flow.pendingMark ++ word)).Worded settings :=
      h.worded_append hw (isSpace_of_letter hletters) rfl rfl rfl rfl rfl
    have hplace : NewMarks blank flow (flow.unmarked.place (flow.pendingMark ++ word)) :=
      newMarks_of_lines (List.prefix_refl _) fun _ => id
    exact hplace.trans hworded.newMarks_fitWord
  · rw [addWord_fresh (by simpa using hglue)]
    have hbegin : NewMarks blank flow (flow.unmarked.beginLine settings) := by
      unfold beginLine
      split <;> exact newMarks_of_lines (List.prefix_refl _) fun _ => id
    have hroom : NewMarks blank (flow.unmarked.beginLine settings)
        ((flow.unmarked.beginLine settings).makeRoom settings (flow.pendingMark ++ word)) := by
      rcases makeRoom_cases settings (flow.unmarked.beginLine settings)
        (flow.pendingMark ++ word) with ⟨hw, hroom⟩ | hroom
      · -- The line that is complete holds a word.
        rw [beginLine_hasWords] at hw
        have hsame : flow.unmarked.beginLine settings = flow.unmarked := beginLine_of_hasWords hw
        rw [hroom, hsame]
        have hcommit : NewMarks blank flow.unmarked flow.unmarked.commit :=
          newMarks_commit (h.begun.word hw).2.current_ne_nil
        exact ⟨hcommit.lines, hcommit.marks⟩
      · rw [hroom]
        exact newMarks_of_lines (List.prefix_refl _) fun _ => id
    exact hbegin.trans (hroom.trans (newMarks_of_lines (List.prefix_refl _) fun _ => id))

/-- **Text** marks lines that hold a word at most. -/
theorem Fitted.newMarks_addText (h : flow.Fitted settings) (hpre : flow.context.inPre = false)
    (s : Text) : NewMarks blank flow (flow.addText settings s) := by
  have hstart : flow.Fitted settings ∧ NewMarks blank flow flow := ⟨h, newMarks_refl flow⟩
  refine (addText_preserves (P := fun b => b.Fitted settings ∧ NewMarks blank flow b) s ?_ ?_
    hstart).2
  · rintro a glue ⟨hfitted, hmarks⟩
    exact ⟨hfitted.change (.glue a glue), hmarks.lines, hmarks.marks⟩
  · rintro a w glue hcontext hne hletter ⟨hfitted, hmarks⟩
    exact ⟨hfitted.change (.word a (hcontext ▸ hpre) w hne hletter glue),
      hmarks.trans (hfitted.newMarks_addWord hletter glue)⟩

/-! ## (3) Lines of their own -/

/-- No line of a table is blank. -/
theorem ne_nil_of_mem_draw (headers : Row) (rows : List Row) (maxWidth : Int) (indent : Text) :
    ∀ line ∈ Table.draw headers rows maxWidth indent, line ≠ [] := by
  have hborder : ∀ widths corners, corners.left ≠ [] →
      ∀ line ∈ [Table.border widths indent corners], line ≠ [] := by
    intro widths corners hleft line hline
    rw [List.mem_singleton.1 hline]
    simp [Table.border, hleft]
  -- Rows and borders start with a bar or a corner, whatever their cells hold.
  have hrow : ∀ cells widths, ∀ line ∈ Table.row cells widths indent, line ≠ [] := by
    intro cells widths line hline
    obtain ⟨index, -, rfl⟩ := List.mem_map.1 hline
    simp
  have hbody : ∀ widths, ∀ line ∈ Table.body widths indent rows, line ≠ [] := by
    intro widths
    refine Lists.forall_mem_intercalate _ (hborder widths .inner (by decide)) fun piece hpiece => ?_
    obtain ⟨cells, -, rfl⟩ := List.mem_map.1 hpiece
    exact hrow cells widths
  intro line hline
  unfold Table.draw at hline
  dsimp only at hline
  split at hline
  · cases hline
  · simp only [List.mem_append] at hline
    rcases hline with ((hline | hline) | hline) | hline
    · exact hborder _ .top (by decide) line hline
    -- The header has a border below it, and is left out if the table has none.
    · split at hline
      · cases hline
      · rcases List.mem_append.1 hline with hline | hline
        · exact hrow _ _ line hline
        · exact hborder _ .inner (by decide) line hline
    · exact hbody _ line hline
    · exact hborder _ .bottom (by decide) line hline

/-- The line of an image is not blank. -/
theorem ne_nil_of_mem_imageLines (flow : Flow) (settings : Settings)
    (attributes : List Attribute) : ∀ line ∈ flow.imageLines settings attributes, line ≠ [] := by
  intro line hline
  unfold imageLines at hline
  split at hline
  · cases hline
  · rw [List.mem_singleton.1 hline]
    refine List.append_ne_nil_of_right_ne_nil _ ?_
    unfold imageLabel
    split
    · decide
    · simp

/-- The line of a rule is not blank. -/
theorem ne_nil_of_mem_ruleLines (flow : Flow) (settings : Settings) :
    ∀ line ∈ flow.ruleLines settings, line ≠ [] := by
  intro line hline
  unfold ruleLines at hline
  dsimp only at hline
  split at hline
  · rename_i hwidth
    rw [List.mem_singleton.1 hline]
    refine List.append_ne_nil_of_right_ne_nil _ fun hnil => ?_
    rw [List.replicate_eq_nil_iff] at hnil
    omega
  · cases hline

/-- **No line of its own is blank.** -/
theorem ne_nil_of_mem_apartLines (flow : Flow) (settings : Settings) (token : Token) :
    ∀ line ∈ flow.apartLines settings token, line ≠ [] := by
  have hnone : ∀ line ∈ ([] : List Line), line ≠ [] := fun _ h => absurd h List.not_mem_nil
  unfold apartLines
  split
  · split
    · exact ne_nil_of_mem_draw _ _ _ _
    · exact hnone
  · split_ifs
    · exact hnone
    · exact hnone
    · exact ne_nil_of_mem_imageLines flow settings _
    · exact ne_nil_of_mem_ruleLines flow settings
    · exact hnone
  · exact hnone

/-- Only the line of the image is marked. -/
theorem newMarks_addImage (flow : Flow) (attributes : List Attribute) :
    NewMarks blank flow (flow.addImage settings attributes) := by
  have hne := ne_nil_of_mem_imageLines flow.newLine settings attributes
  unfold addImage
  unfold imageLines at hne
  cases hsource : Attribute.nonempty? attributes "src".toList with
  | none => exact newMarks_refl flow
  | some source =>
    rw [hsource] at hne
    have hblock : NewMarks blank flow.newLine (flow.newLine.commitBlock _ Group.image) :=
      newMarks_commitBlock (fun hnil => absurd hnil (hne _ List.mem_cons_self)) Group.image
    refine (newMarks_newLine flow).trans (NewMarks.trans ?_ (newMarks_newLine _))
    exact ⟨hblock.lines, hblock.marks⟩

/-- Only the line of the rule is marked. -/
theorem newMarks_addRule (flow : Flow) : NewMarks blank flow (flow.addRule settings) := by
  have hne := ne_nil_of_mem_ruleLines flow.newLine settings
  unfold addRule
  unfold ruleLines at hne
  dsimp only at hne ⊢
  refine (newMarks_newLine flow).trans (NewMarks.trans ?_ (newMarks_newLine _))
  split
  · rename_i hwidth
    rw [if_pos hwidth] at hne
    exact newMarks_commitBlock (fun hnil => absurd hnil (hne _ List.mem_cons_self)) Group.rule
  · exact newMarks_refl _

/-- Only the lines of the table are marked. -/
theorem newMarks_flushTable (flow : Flow) : NewMarks blank flow (flow.flushTable settings) := by
  have hstart : NewMarks blank flow (newLine { flow with nestedTables := 0 }) := by
    have hquiet : NewMarks blank flow { flow with nestedTables := 0 } :=
      newMarks_of_lines (List.prefix_refl _) fun _ => id
    exact hquiet.trans (newMarks_newLine _)
  have hempty : NewMarks blank (newLine { flow with nestedTables := 0 })
      ((newLine { flow with nestedTables := 0 }).updateTable fun _ => {}) :=
    newMarks_of_lines (List.prefix_refl _) fun _ => id
  refine hstart.trans (hempty.trans (NewMarks.trans ?_ (newMarks_newLine _)))
  exact newMarks_addTableLines _ _ (ne_nil_of_mem_draw _ _ _ _)

/-! ## (4) Tokens -/

/-- Text outside preformatted blocks marks nothing. -/
theorem Fitted.newMarks_feedText (h : flow.Fitted settings) (hpre : flow.context.inPre = false)
    (s : Text) : NewMarks blank flow (flow.feedText settings s) := by
  have hheading : NewMarks blank flow (flow.collectHeading s) := by
    unfold collectHeading
    split <;> exact newMarks_of_lines (List.prefix_refl _) fun _ => id
  have hfitted : (flow.collectHeading s).Fitted settings :=
    h.changes (collectHeading_changes flow s)
  have hpre' : (flow.collectHeading s).context.inPre = false := by simpa using hpre
  rw [feedText_eq]
  split
  · exact newMarks_refl flow
  · split
    · split
      · exact hheading.trans (updateTable_housekeeping _ _ rfl).newMarks
      · exact hheading
    · rw [if_neg (by simp [hpre])]
      exact hheading.trans (hfitted.newMarks_addText hpre' s)

/-- **Actions** outside preformatted text mark no blank lines. -/
theorem Action.newMarks (haction : Action settings flow token apart acted)
    (h : flow.Fitted settings) (hpre : flow.context.inPre = false) :
    NewMarks blank flow acted := by
  have hline : NewMarks blank flow flow.newLine := newMarks_newLine flow
  cases haction with
  | none => exact newMarks_refl flow
  | text s => exact h.newMarks_feedText hpre s
  -- What a block does besides ending the line marks no line and adds none.
  | item =>
    obtain ⟨spans, heq⟩ := exists_atItem settings flow.newLine
    rw [startItem_eq, heq]
    exact ⟨hline.lines, hline.marks⟩
  | openPre => exact ⟨hline.lines, hline.marks⟩
  | openHeading => exact ⟨hline.lines, hline.marks⟩
  | openTable =>
    unfold Flow.openTable
    split
    · exact newMarks_of_lines (List.prefix_refl _) fun _ => id
    · exact ⟨hline.lines, hline.marks⟩
  | closeHeading => exact ⟨hline.lines, hline.marks⟩
  -- A preformatted block cannot be closed where none is open.
  | closePre name hpre' => exact absurd hpre' (by simp [hpre])
  | codeEnd name hw codeDepth =>
    -- The mark makes the last word longer, which may move to the next line then.
    have hworded : ({ flow with codeDepth }.atCodeEnd).Worded settings :=
      h.worded_append hw isSpace_codeMark rfl rfl rfl rfl rfl
    have hmark : NewMarks blank flow ({ flow with codeDepth }.atCodeEnd) :=
      newMarks_of_lines (List.prefix_refl _) fun _ => id
    exact hmark.trans hworded.newMarks_fitWord
  | closeTable => exact newMarks_flushTable flow
  | preBreak name attributes hpre' => exact absurd hpre' (by simp [hpre])
  | image name attributes => exact newMarks_addImage flow attributes
  | rule => exact newMarks_addRule flow

/-- Every change marks only lines that it puts on the page. -/
theorem Change.newMarks (hc : Change settings a b) (h : a.Fitted settings) :
    NewMarks True a b := by
  cases hc with
  | quiet => exact newMarks_of_lines (List.prefix_refl _) fun _ => id
  | anchor attributes => exact (Housekeeping.anchor a attributes).newMarks
  | heading => exact newMarks_of_lines (List.prefix_refl _) fun _ => id
  | headingLine => exact newMarks_of_lines (List.prefix_refl _) fun _ => id
  | pendingMark => exact newMarks_of_lines (List.prefix_refl _) fun _ => id
  | commit hne => exact newMarks_commit hne
  | blank => exact newMarks_of_lines (List.prefix_append _ _) fun _ => id
  | reset => exact newMarks_of_lines (List.prefix_refl _) fun _ => id
  | block => exact newMarks_of_lines (List.prefix_refl _) fun _ => id
  | leavePre => exact newMarks_of_lines (List.prefix_refl _) fun _ => id
  | item =>
    obtain ⟨spans, heq⟩ := exists_atItem settings a
    rw [heq]
    exact newMarks_of_lines (List.prefix_refl _) fun _ => id
  | word hpre word hne hword glue => exact h.newMarks_addWord hword glue
  | codeEnd hw =>
    have haction : Action settings a (.closing []) [] (a.atCodeEnd.fitWord settings) :=
      .codeEnd [] hw a.codeDepth
    exact haction.newMarks h (h.begun.word hw).1
  | piece hpre piece hne =>
    rw [addPiece_of_ne_nil hne]
    exact newMarks_of_lines (List.prefix_refl _) fun _ => id
  -- A line of preformatted text is the start of the line and its text, and is exempt.
  | commitPre =>
    obtain ⟨page, spans, heq, hlines⟩ := exists_commitPre_lines settings a
    have hline : (a.commitPre settings).page.lines = a.page.lines ++ [a.preStart settings] := by
      rw [heq]
      exact hlines
    refine newMarks_of_line hline (fun i hi => ?_) fun _ => trivial
    unfold Flow.commitPre at hi
    dsimp only at hi
    split_ifs at hi
    all_goals exact marks_commit hi
  | image hnil source alt =>
    have hblock : NewMarks True a
        (a.commitBlock (a.indent settings ++ imageLabel alt) Group.image) :=
      newMarks_commitBlock (fun _ => trivial) Group.image
    exact ⟨hblock.lines, hblock.marks⟩
  | rule => exact newMarks_commitBlock (fun _ => trivial) Group.rule
  | tableLine => exact newMarks_tableLine fun _ => trivial

/-- In preformatted text, blank lines can be marked. -/
theorem Changes.newMarks (hc : Changes settings a b) (h : a.Fitted settings) :
    NewMarks True a b := by
  induction hc with
  | refl => exact newMarks_refl a
  | tail hab hbc ih => exact ih.trans (hbc.newMarks (h.changes hab))

/-- **A token** marks only lines that it puts on the page, and blank ones only in preformatted
text. -/
theorem newMarks_feed (h : flow.Fitted settings) (token : Token) :
    NewMarks (flow.context.inPre = true) flow (flow.feed settings token) := by
  by_cases hpre : flow.context.inPre = true
  · exact ((feed_changes flow token).newMarks h).mono fun _ => hpre
  · obtain ⟨acted, haction, hkeep⟩ := feed_turn settings flow token
    exact (haction.newMarks h (by simpa using hpre)).trans hkeep.newMarks

/-- **The end of a chapter** marks only lines that it puts on the page, and blank ones only in
preformatted text. -/
theorem newMarks_flush (h : flow.Fitted settings) :
    NewMarks (flow.context.inPre = true) flow (flow.flush settings) := by
  by_cases hpre : flow.context.inPre = true
  · exact ((flush_changes flow).newMarks h).mono fun _ => hpre
  · by_cases hin : flow.context.table.inTable = true
    · rw [flush_of_inTable hin, flushPre, if_neg hpre]
      exact newMarks_flushTable flow
    · rw [flush_eq (by simpa using hin), if_neg hpre]
      dsimp only
      split
      · exact newMarks_refl flow
      · rename_i hne
        exact newMarks_commit (by simpa using hne)

/-! ## (5) Pages -/

/-- Whether every mark is on a line with text, or on a line of preformatted text. -/
def MarksKnown (kinds : List LineKind) (flow : Flow) : Prop :=
  ∀ i, flow.page.Marks i → ∃ n : Nat, i = n ∧ ∃ line, flow.page.lines[n]? = some line ∧
    (line = [] → kinds[n]? = some .preformatted)

/-- The kinds of the lines that come in preformatted text. -/
theorem mem_kindsBetween {kind : LineKind} (h : kind ∈ kindsBetween settings flow mid apart flow')
    (hpre : flow.context.inPre = true) (hmid : mid.context.inPre = true) :
    kind = .preformatted ∨ ∃ line ∈ apart, kind = .apart line := by
  have hkind : ∀ x : Flow, x.context.inPre = true → x.kind settings = .preformatted := by
    intro x hx
    rw [Flow.kind, if_pos hx]
  unfold kindsBetween at h
  rcases List.mem_append.1 h with h | h
  · exact .inl ((List.eq_of_mem_replicate h).trans (hkind flow hpre))
  · rcases List.mem_append.1 h with h | h
    · obtain ⟨line, hline, rfl⟩ := List.mem_map.1 h
      exact .inr ⟨line, hline, rfl⟩
    · exact .inl ((List.eq_of_mem_replicate h).trans (hkind mid hmid))

/-- Every line has a kind that describes it. -/
theorem exists_of_forall₂ {kinds : List LineKind} {lines : List Line}
    (h : List.Forall₂ (LineKind.Describes settings) kinds lines) (hline : lines[n]? = some line) :
    ∃ kind, kinds[n]? = some kind ∧ kind.Describes settings line := by
  induction h generalizing n with
  | nil => cases hline
  | cons hfirst _ ih =>
    cases n with
    | zero =>
      obtain rfl := Option.some.inj hline
      exact ⟨_, rfl, hfirst⟩
    | succ n => exact ih hline

/-- What is known of the marks stays known with the lines that come next. -/
theorem MarksKnown.next {kinds : List LineKind} (hknown : MarksKnown kinds flow)
    (hkinds : List.Forall₂ (LineKind.Describes settings) kinds flow.page.lines)
    (hkinds' : List.Forall₂ (LineKind.Describes settings)
      (kinds ++ kindsBetween settings flow mid apart flow') flow'.page.lines)
    (hmid : mid.context.inPre = flow.context.inPre) (hapart : ∀ line ∈ apart, line ≠ [])
    (hnew : NewMarks (flow.context.inPre = true) flow flow') :
    MarksKnown (kinds ++ kindsBetween settings flow mid apart flow') flow' := by
  intro i hi
  rcases hnew.marks i hi with hi | ⟨n, rfl, hn, line, hline, hblank⟩
  · obtain ⟨n, rfl, line, hline, hpre⟩ := hknown i hi
    refine ⟨n, rfl, line, getElem?_of_grow hnew.lines hline, fun hnil => ?_⟩
    have hkind := hpre hnil
    rw [List.getElem?_append_left (List.getElem?_eq_some_iff.1 hkind).1]
    exact hkind
  · refine ⟨n, rfl, line, hline, fun hnil => ?_⟩
    -- The line is a new one of preformatted text, since lines of their own are not blank.
    have hpre := hblank hnil
    obtain ⟨kind, hkind, hdescribes⟩ := exists_of_forall₂ hkinds' hline
    have hlength : kinds.length ≤ n := hkinds.length_eq ▸ hn
    have hmem : kind ∈ kindsBetween settings flow mid apart flow' := by
      rw [List.getElem?_append_right hlength] at hkind
      exact List.mem_of_getElem? hkind
    rcases mem_kindsBetween hmem hpre (hmid.trans hpre) with rfl | ⟨other, hother, rfl⟩
    · exact hkind
    · have hsame : line = other := hdescribes
      exact absurd (hsame ▸ hnil) (hapart other hother)

/-- The line before a token is ended in the same blocks. -/
theorem ended_inPre (flow : Flow) (settings : Settings) (token : Token) (apart : List Line) :
    (flow.ended settings token apart).context.inPre = flow.context.inPre := by
  have hitem : (flow.startItem settings).context.inPre = flow.newLine.context.inPre := by
    obtain ⟨spans, heq⟩ := exists_atItem settings flow.newLine
    rw [startItem_eq, heq]
    show flow.newLine.context.nextMarker.2.inPre = _
    unfold BlockContext.nextMarker
    split
    · rfl
    · split <;> rfl
  unfold ended
  split_ifs
  · rw [hitem, newLine_context]
  · rfl
  · rw [newLine_context]

/-- Behind the end of a table at the end of a chapter, preformatted text is open if it was before.
-/
theorem flushEnded_inPre (flow : Flow) (settings : Settings) :
    (flow.flushEnded settings).context.inPre = flow.context.inPre := by
  unfold flushEnded
  split
  · rw [newLine_context, flushPre_context]
  · rfl

/-- What is known of the marks stays known to the end of the chapter. -/
theorem MarksKnown.run {kinds : List LineKind} (tokens : List Token)
    (hfitted : flow.Fitted settings)
    (hkinds : List.Forall₂ (LineKind.Describes settings) kinds flow.page.lines)
    (hknown : MarksKnown kinds flow) :
    MarksKnown (kinds ++ lineKinds settings flow tokens)
      ((flow.feedAll settings tokens).flush settings) := by
  induction tokens generalizing flow kinds with
  | nil =>
    refine hknown.next hkinds (forall₂_flushKinds hfitted hkinds) (flushEnded_inPre flow settings)
      ?_ (newMarks_flush hfitted)
    split
    · exact ne_nil_of_mem_draw _ _ _ _
    · exact fun _ h => absurd h List.not_mem_nil
  | cons token tokens ih =>
    rw [lineKinds, ← List.append_assoc]
    refine ih (hfitted.changes (feed_changes flow token))
      (forall₂_tokenKinds hfitted hkinds token) ?_
    exact hknown.next hkinds (forall₂_tokenKinds hfitted hkinds token)
      (ended_inPre flow settings token _) (ne_nil_of_mem_apartLines flow settings token)
      (newMarks_feed hfitted token)

/-- **Every mark is on a line of the page,** or on a line of preformatted text that was removed as a
blank line at the end of the page. -/
theorem run_marks (settings : Settings) (tokens : List Token)
    (hi : (run settings tokens).page.Marks i) :
    ∃ n : Nat, i = n ∧ (n < (run settings tokens).page.lines.length ∨
      (lineKinds settings {} tokens)[n]? = some .preformatted) := by
  have hstart : MarksKnown [] ({} : Flow) := by
    rintro i (hi | hi) <;> cases hi
  have hfitted : ({} : Flow).Fitted settings := fitted_feedAll settings []
  have hknown := hstart.run tokens hfitted .nil
  obtain ⟨n, rfl, line, hline, hpre⟩ := hknown i hi
  refine ⟨n, rfl, ?_⟩
  by_cases hnil : line = []
  · exact .inr (hpre hnil)
  · -- Only blank lines are removed at the end of the page.
    exact .inl (lt_length_dropTrailingBlanks hline hnil)

end Flow

end ChapterLayout
