import ChapterLayout.Proofs.Flow.Reflow
import ChapterLayout.Proofs.Flow.Turn
import ChapterLayout.Proofs.Lists
import ChapterLayout.Proofs.Table.Rectangle
import ChapterLayout.Proofs.Text.OneLine

/-! # Lines without line breaks

Text comes to the lines of a page as words, as pieces of preformatted text, as the label of an image
or in the cells of a table, and behind indentations and markers. Each of these takes the line breaks
out of the text in its own way, so that no line of a page holds one:

* **`BlockContext.isOneLine_indent`**, **`IsMarker.isOneLine`** — what lines start with;
* **`Table.isOneLine_of_mem_draw`** — the lines of a table, whatever its cells hold;
* **`Flow.Unbroken`** — no line of the page holds a line break, nor does what the next lines are
  made of;
* **`Flow.Unbroken.addWord`**, **`Flow.Unbroken.addPre`**, … — what lays out text keeps it that way;
* **`Flow.Unbroken.feed`**, **`Flow.run_isOneLine`** — and so does every token, to the end. -/

namespace ChapterLayout

/-! ## (1) Starts of lines -/

/-- **Indentations** are bars and spaces. -/
theorem BlockContext.isOneLine_indent (context : BlockContext) (typography : Typography) :
    (context.indent typography).IsOneLine := by
  have hbars : ∀ n : Nat, Text.IsOneLine (List.replicate n quoteBar).flatten := by
    intro n c hc
    obtain ⟨bar, hbar, hc⟩ := List.mem_flatten.1 hc
    have hone : Text.IsOneLine quoteBar := by decide
    rw [List.eq_of_mem_replicate hbar] at hc
    exact hone c hc
  unfold indent
  refine Text.IsOneLine.append (Text.IsOneLine.append ?_ (Text.isOneLine_spaces _)) ?_
  · split
    · exact (hbars _).append (Text.isOneLine_spaces _)
    · exact Text.isOneLine_nil
  · split
    · exact Text.isOneLine_spaces _
    · exact Text.isOneLine_nil

/-- **Markers** are bullets or numbers. -/
theorem IsMarker.isOneLine {lists : List ListLevel} {marker : Text} (h : IsMarker lists marker) :
    marker.IsOneLine := by
  cases h with
  | outside => exact Text.isOneLine_nil
  | bullet level outer => decide
  | number level outer n => exact (Text.isOneLine_ofNat n).append (by decide)

/-! ## (2) Lines of their own -/

namespace Table

variable {headers cells : Row} {rows : List Row} {maxWidth width : Int} {widths : List Int}
  {indent line s : Text}

/-- **The lines of a cell** are what its words with one space between them are broken into. -/
theorem isOneLine_of_mem_wrapCell (h : line ∈ wrapCell s width) : line.IsOneLine := by
  have hjoined : [' '].intercalate (wrapCell s width) = Text.squeeze s :=
    ((isGreedy_iff s width _).2 rfl).joined
  refine (Text.isOneLine_squeeze s).subset ?_
  rw [← hjoined]
  exact Text.subset_intercalate h

/-- The lines of the cells of a row; a missing cell has a line without text. -/
theorem isOneLine_of_mem_wrapRow {wrapped : List Line} (hwrapped : wrapped ∈ wrapRow cells widths)
    (h : line ∈ wrapped) : line.IsOneLine := by
  rcases List.mem_append.1 hwrapped with hcell | hmissing
  · rw [← List.map_uncurry_zip_eq_zipWith] at hcell
    obtain ⟨⟨cell, width⟩, -, rfl⟩ := List.mem_map.1 hcell
    exact isOneLine_of_mem_wrapCell h
  · rw [List.eq_of_mem_replicate hmissing, List.mem_singleton] at h
    rw [h]
    exact Text.isOneLine_nil

/-- The texts in the columns of a row are lines of its cells, or nothing, with spaces behind. -/
theorem isOneLine_of_mem_rowTexts {index : Nat} (h : s ∈ rowTexts cells widths index) :
    s.IsOneLine := by
  obtain ⟨⟨t, width⟩, ht, rfl⟩ := List.mem_map.1 h
  obtain ⟨wrapped, hwrapped, rfl⟩ := List.mem_map.1 (List.of_mem_zip ht).1
  refine Text.IsOneLine.append ?_ (Text.isOneLine_spaces _)
  by_cases hindex : index < wrapped.length
  · rw [List.getD_eq_getElem _ _ hindex]
    exact isOneLine_of_mem_wrapRow hwrapped (List.getElem_mem hindex)
  · rw [List.getD_eq_default _ _ (Nat.le_of_not_lt hindex)]
    exact Text.isOneLine_nil

/-- **The lines of a row** hold bars and the texts of its columns between spaces. -/
theorem isOneLine_of_mem_row (hindent : indent.IsOneLine) (h : line ∈ row cells widths indent) :
    line.IsOneLine := by
  have hcell : ∀ {s : Text}, s.IsOneLine → (boxCell s).IsOneLine := fun hs =>
    Text.IsOneLine.append (List.forall_mem_cons.2 ⟨rfl, hs⟩) (by decide)
  rw [row_eq] at h
  obtain ⟨index, -, rfl⟩ := List.mem_map.1 h
  refine hindent.append (List.forall_mem_cons.2 ⟨rfl, fun c hc => ?_⟩)
  obtain ⟨s, hs, hc⟩ := List.mem_flatMap.1 hc
  exact hcell (isOneLine_of_mem_rowTexts hs) c hc

/-- **Borders** are strokes between corners. -/
theorem isOneLine_border (widths : List Int) (hindent : indent.IsOneLine) :
    ∀ corners ∈ [Corners.top, .inner, .bottom], (border widths indent corners).IsOneLine := by
  have hcorners : ∀ corners ∈ [Corners.top, .inner, .bottom],
      corners.left.IsOneLine ∧ corners.middle.IsOneLine ∧ corners.right.IsOneLine := by decide
  intro corners hmem
  obtain ⟨hleft, hmiddle, hright⟩ := hcorners corners hmem
  refine ((hindent.append hleft).append ?_).append hright
  refine Lists.forall_mem_intercalate _ hmiddle fun piece hpiece => ?_
  obtain ⟨width, -, rfl⟩ := List.mem_map.1 hpiece
  exact Text.isOneLine_replicate _ (by decide)

/-- **The lines of a table** are one line each, whatever its cells hold. -/
theorem isOneLine_of_mem_draw (hindent : indent.IsOneLine)
    (h : line ∈ draw headers rows maxWidth indent) : line.IsOneLine := by
  have hborder := isOneLine_border (columnWidths headers rows maxWidth (Text.width indent)) hindent
  simp only [List.forall_mem_cons] at hborder
  obtain ⟨htop, hinner, hbottom, -⟩ := hborder
  have hbody : ∀ line ∈ body (columnWidths headers rows maxWidth (Text.width indent)) indent rows,
      line.IsOneLine := by
    apply Lists.forall_mem_intercalate
    · simpa using hinner
    · intro block hblock line hline
      obtain ⟨cells, -, rfl⟩ := List.mem_map.1 hblock
      exact isOneLine_of_mem_row hindent hline
  unfold draw at h
  dsimp only at h
  split at h
  · simp at h
  · simp only [List.mem_append, List.mem_singleton] at h
    rcases h with ((rfl | h) | h) | rfl
    · exact htop
    · -- The rows of the header have a border below them.
      split at h
      · simp at h
      · rcases List.mem_append.1 h with h | h
        · exact isOneLine_of_mem_row hindent h
        · rw [List.mem_singleton.1 h]
          exact hinner
    · exact hbody line h
    · exact hbottom

end Table

namespace Flow

variable {settings : Settings} {flow a b acted : Flow} {token : Token} {apart : List Line}
  {line s word : Text}

/-- The label of an image is one line if its description is. -/
theorem isOneLine_imageLabel {alt : Text} (h : alt.IsOneLine) : (imageLabel alt).IsOneLine := by
  unfold imageLabel
  split
  · decide
  · exact (Text.IsOneLine.append (by decide) h).append (by decide)

/-- The indentation is one line. -/
theorem isOneLine_indent (settings : Settings) (flow : Flow) :
    (flow.indent settings).IsOneLine := BlockContext.isOneLine_indent _ _

/-! ## (3) The invariant -/

/-- Whether no line of the page holds a line break, nor does what the next lines are made of. -/
structure Unbroken (flow : Flow) : Prop where
  lines : ∀ line ∈ flow.page.lines, line.IsOneLine
  current : flow.current.IsOneLine
  continuation : flow.continuation.IsOneLine
  pendingMark : flow.pendingMark.IsOneLine

namespace Unbroken

/-- The line that is being filled may be another one. -/
theorem withCurrent (h : flow.Unbroken) (hline : line.IsOneLine) :
    ({ flow with current := line } : Flow).Unbroken :=
  ⟨h.lines, hline, h.continuation, h.pendingMark⟩

/-- Lines may be added to the page. -/
theorem withLines (h : flow.Unbroken) {lines : List Line} (hlines : ∀ line ∈ lines, line.IsOneLine)
    (page : Page) (hpage : page.lines = flow.page.lines ++ lines) :
    ({ flow with page } : Flow).Unbroken := by
  refine ⟨?_, h.current, h.continuation, h.pendingMark⟩
  rw [hpage]
  exact List.forall_mem_append.2 ⟨h.lines, hlines⟩

/-- A committed line was one line before. -/
theorem commit (h : flow.Unbroken) : flow.commit.Unbroken :=
  ⟨List.forall_mem_append.2 ⟨h.lines, List.forall_mem_singleton.2 h.current⟩, Text.isOneLine_nil,
    h.continuation, h.pendingMark⟩

/-- A line that is put on the page as it is. -/
theorem addLine (h : flow.Unbroken) (hline : line.IsOneLine) : (flow.addLine line).Unbroken :=
  h.withLines (List.forall_mem_singleton.2 hline) _ rfl

/-- The end of a line writes nothing into it. -/
theorem newLine (h : flow.Unbroken) : flow.newLine.Unbroken := by
  have hreset : ∀ {a : Flow}, a.Unbroken →
      ({ a with continuation := [], glue := false } : Flow).Unbroken := fun ha =>
    ⟨ha.lines, ha.current, Text.isOneLine_nil, ha.pendingMark⟩
  by_cases hnil : flow.current = []
  · by_cases hend : flow.endsInText = true
    · rw [newLine_of_endsInText hnil hend]
      exact hreset (h.addLine Text.isOneLine_nil)
    · rw [newLine_of_not_endsInText hnil (by simpa using hend)]
      exact hreset h
  · rw [newLine_of_begun hnil]
    exact hreset h.commit

/-- Anchors are recorded beside the lines. -/
theorem recordAnchor (h : flow.Unbroken) (attributes : List Attribute) :
    (flow.recordAnchor attributes).Unbroken := by
  obtain ⟨anchors, hanchors⟩ := exists_recordAnchor flow attributes
  rw [hanchors]
  exact ⟨h.lines, h.current, h.continuation, h.pendingMark⟩

/-- The text of a heading is collected beside the lines. -/
theorem collectHeading (h : flow.Unbroken) (s : Text) : (flow.collectHeading s).Unbroken := by
  unfold Flow.collectHeading
  split
  · exact ⟨h.lines, h.current, h.continuation, h.pendingMark⟩
  · exact h

/-! ## (4) Words -/

/-- A line begins with its indentation. -/
theorem beginLine (h : flow.Unbroken) : (flow.beginLine settings).Unbroken := by
  obtain ⟨-, -, hbegin⟩ | hbegin := beginLine_cases settings flow
  · rw [hbegin]
    exact ⟨h.lines, isOneLine_indent settings flow, isOneLine_indent settings flow, h.pendingMark⟩
  · rw [hbegin]
    exact h

/-- A word that does not fit goes to a line of its own, behind the indentation. -/
theorem makeRoom (h : flow.Unbroken) (word : Text) : (flow.makeRoom settings word).Unbroken := by
  obtain ⟨-, hroom⟩ | hroom := makeRoom_cases settings flow word
  · rw [hroom]
    exact h.commit.withCurrent h.continuation
  · rw [hroom]
    refine h.withCurrent (h.current.append fun c hc => ?_)
    rw [beq_iff_eq.1 (isSpace_of_mem_separator hc)]
    rfl

/-- The start of a word is only noted. -/
theorem startWord (h : flow.Unbroken) : flow.startWord.Unbroken :=
  ⟨h.lines, h.current, h.continuation, h.pendingMark⟩

/-- A word is written into the line. -/
theorem place (h : flow.Unbroken) (hword : word.IsOneLine) : (flow.place word).Unbroken :=
  ⟨h.lines, h.current.append hword, h.continuation, h.pendingMark⟩

/-- The part of the line before the last word and the word itself are parts of the line. -/
theorem fitWord (h : flow.Unbroken) : (flow.fitWord settings).Unbroken := by
  rw [fitWord_eq]
  split
  · exact h
  · have hbefore : Text.IsOneLine
        (Text.trimRight Text.isSpace (flow.current.take flow.wordStart)) :=
      h.current.subset fun c hc =>
        List.mem_of_mem_take (List.mem_reverse.1 ((List.dropWhile_sublist _).subset
          (List.mem_reverse.1 hc)))
    have hword : Text.IsOneLine (flow.current.drop flow.wordStart) :=
      h.current.subset (List.drop_subset _ _)
    exact ⟨List.forall_mem_append.2 ⟨h.lines, List.forall_mem_singleton.2 hbefore⟩,
      h.continuation.append hword, h.continuation, h.pendingMark⟩

/-- **A word** is put on a line behind its mark. -/
theorem addWord (h : flow.Unbroken) (hword : word.IsOneLine) (glue : Bool) :
    (flow.addWord settings word glue).Unbroken := by
  have hmarked : Text.IsOneLine (flow.pendingMark ++ word) := h.pendingMark.append hword
  have hunmarked : ({ flow with pendingMark := [] } : Flow).Unbroken :=
    ⟨h.lines, h.current, h.continuation, Text.isOneLine_nil⟩
  have hbegun : (Flow.beginLine { flow with pendingMark := [] } settings).Unbroken :=
    hunmarked.beginLine
  -- A glued word goes on in its line or moves with it; a fresh one may end the line before.
  unfold Flow.addWord
  dsimp only
  split
  · exact (hbegun.place hmarked).fitWord
  · exact (hbegun.makeRoom _).startWord.place hmarked

/-- **Flow text** is cut at its line breaks. -/
theorem addText (h : flow.Unbroken) (s : Text) : (flow.addText settings s).Unbroken := by
  -- Both line breaks are blanks of flow text, so no word holds one.
  refine addText_preserves s (fun glue ha => ?_) (fun glue _ _ hletter ha => ?_) h
  · exact ⟨ha.lines, ha.current, ha.continuation, ha.pendingMark⟩
  · refine ha.addWord (Text.isOneLine_iff.2 ⟨fun hc => ?_, fun hc => ?_⟩) glue
    · exact absurd (hletter _ hc) (by decide)
    · exact absurd (hletter _ hc) (by decide)

/-- **The mark behind inline code** is put at the end of the line. -/
theorem codeEnd (h : flow.Unbroken) : (flow.atCodeEnd.fitWord settings).Unbroken := by
  have hmarked : flow.atCodeEnd.Unbroken :=
    ⟨h.lines, h.current.append (by decide), h.continuation, h.pendingMark⟩
  exact hmarked.fitWord

/-! ## (5) Preformatted text -/

/-- A line of preformatted text starts with its indentation, or where the line stands. -/
theorem preStart (h : flow.Unbroken) : (flow.preStart settings).IsOneLine := by
  unfold Flow.preStart
  split
  · exact h.current
  · exact isOneLine_indent settings flow

/-- A piece of preformatted text is written into the line. -/
theorem addPiece (h : flow.Unbroken) (hs : s.IsOneLine) : (flow.addPiece settings s).Unbroken := by
  by_cases hnil : s = []
  · rw [hnil]
    exact h
  · rw [addPiece_of_ne_nil hnil]
    exact ⟨h.lines, h.preStart.append hs, h.continuation, h.pendingMark⟩

/-- A line of preformatted text is committed as it stands. -/
theorem commitPre (h : flow.Unbroken) : (flow.commitPre settings).Unbroken := by
  obtain ⟨page, spans, hcommit, hlines⟩ := exists_commitPre_lines settings flow
  rw [hcommit]
  have hpage := h.withLines (List.forall_mem_singleton.2 h.preStart) page hlines
  exact ⟨hpage.lines, Text.isOneLine_nil, h.continuation, h.pendingMark⟩

/-- **Preformatted text** is cut at its line breaks, of whatever form. -/
theorem addPre (h : flow.Unbroken) (s : Text) : (flow.addPre settings s).Unbroken := by
  refine addPre_preserves s (fun _ ha => ?_) (fun _ hbreak ha => ?_) (fun _ ha => ha.commitPre) h
  · exact ⟨ha.lines, ha.current, ha.continuation, ha.pendingMark⟩
  · exact ha.addPiece (Text.isOneLine_iff.2 hbreak)

/-- The line of preformatted text that is open is committed as it stands. -/
theorem endPreLine (h : flow.Unbroken) : (flow.endPreLine settings).Unbroken := by
  unfold Flow.endPreLine
  split
  · exact h.commitPre
  · exact h

/-! ## (6) Lines of their own -/

/-- A line that stands alone. -/
theorem commitBlock (h : flow.Unbroken) (hs : s.IsOneLine) (group : Group) :
    (flow.commitBlock s group).Unbroken :=
  ⟨List.forall_mem_append.2 ⟨h.lines, List.forall_mem_singleton.2 hs⟩, Text.isOneLine_nil,
    h.continuation, h.pendingMark⟩

/-- **An item** begins with its marker. -/
theorem startItem (h : flow.Unbroken) : (flow.startItem settings).Unbroken := by
  have hmarker : flow.newLine.context.nextMarker.1.IsOneLine :=
    (BlockContext.isMarker_nextMarker _).isOneLine
  have hindent := isOneLine_indent settings flow.newLine
  have hline := h.newLine
  rw [startItem_eq]
  unfold atItem
  dsimp only
  split
  all_goals
    exact ⟨hline.lines, hindent.append hmarker,
      hindent.append (Text.isOneLine_replicate _ rfl), hline.pendingMark⟩

/-- **The label of an image** holds the words of its description. -/
theorem addImage (h : flow.Unbroken) (attributes : List Attribute) :
    (flow.addImage settings attributes).Unbroken := by
  unfold Flow.addImage
  split
  · exact h
  · -- The description may hold line breaks as it is written, and is squeezed first.
    have hlabel := isOneLine_imageLabel
      (Text.isOneLine_squeeze ((Attribute.find? attributes "alt".toList).getD []))
    have hline := h.newLine.commitBlock
      ((isOneLine_indent settings flow.newLine).append hlabel) Group.image
    exact newLine ⟨hline.lines, hline.current, hline.continuation, hline.pendingMark⟩

/-- A rule is one line of bars. -/
theorem addRule (h : flow.Unbroken) : (flow.addRule settings).Unbroken := by
  unfold Flow.addRule
  dsimp only
  refine newLine ?_
  split
  · exact h.newLine.commitBlock ((isOneLine_indent settings flow.newLine).append
      (Text.isOneLine_replicate _ (by decide))) _
  · exact h.newLine

/-- The lines of a table are put on the page as they are. -/
theorem addTableLines (h : flow.Unbroken) {lines : List Line}
    (hlines : ∀ line ∈ lines, line.IsOneLine) : (flow.addTableLines lines).Unbroken := by
  unfold Flow.addTableLines
  induction lines generalizing flow with
  | nil => exact h
  | cons line lines ih =>
    obtain ⟨hline, hlines⟩ := List.forall_mem_cons.1 hlines
    have hexempt : (flow.exempt flow.lineIndex).Unbroken :=
      ⟨h.lines, h.current, h.continuation, h.pendingMark⟩
    exact ih (hexempt.addLine hline) hlines

/-- **A table** is drawn from words. -/
theorem flushTable (h : flow.Unbroken) : (flow.flushTable settings).Unbroken := by
  have hstart : ({ flow with nestedTables := 0 } : Flow).Unbroken :=
    ⟨h.lines, h.current, h.continuation, h.pendingMark⟩
  have hline := hstart.newLine
  have hended : ((Flow.newLine { flow with nestedTables := 0 }).updateTable
      fun _ => {}).Unbroken := ⟨hline.lines, hline.current, hline.continuation, hline.pendingMark⟩
  exact newLine (hended.addTableLines fun _ => Table.isOneLine_of_mem_draw (isOneLine_indent _ _))

/-! ## (7) Tokens -/

/-- The start of a table writes nothing. -/
theorem openTable (h : flow.Unbroken) : flow.openTable.Unbroken := by
  unfold Flow.openTable
  split
  · exact ⟨h.lines, h.current, h.continuation, h.pendingMark⟩
  · have hline := h.newLine
    exact ⟨hline.lines, hline.current, hline.continuation, hline.pendingMark⟩

/-- The end of preformatted text writes nothing. -/
theorem closePre (h : flow.Unbroken) : (flow.closePre settings).Unbroken := by
  rw [closePre_eq]
  split
  · have hended : (flow.endPreLine settings).Unbroken := h.endPreLine
    exact newLine ⟨hended.lines, hended.current, hended.continuation, hended.pendingMark⟩
  · exact h

/-- Text is cut into words or into lines before it is written. -/
theorem feedText (h : flow.Unbroken) (s : Text) : (flow.feedText settings s).Unbroken := by
  have hcollected := h.collectHeading s
  rw [feedText_eq]
  split
  · exact h
  split
  · split
    · exact ⟨hcollected.lines, hcollected.current, hcollected.continuation,
        hcollected.pendingMark⟩
    · exact hcollected
  split
  · exact hcollected.addPre s
  · exact hcollected.addText s

/-- **Actions** put no line break into a line. -/
theorem action (h : flow.Unbroken) (haction : Action settings flow token apart acted) :
    acted.Unbroken := by
  have hline := h.newLine
  -- Only text, labels, tables and the starts of lines are written; all other actions end a line.
  cases haction with
  | none => exact h
  | text s => exact h.feedText s
  | item => exact h.startItem
  | openPre => exact ⟨hline.lines, hline.current, hline.continuation, hline.pendingMark⟩
  | openHeading => exact ⟨hline.lines, hline.current, hline.continuation, hline.pendingMark⟩
  | openTable => exact h.openTable
  | closeHeading => exact ⟨hline.lines, hline.current, hline.continuation, hline.pendingMark⟩
  | closePre => exact h.closePre
  | codeEnd name hw codeDepth =>
    exact codeEnd ⟨h.lines, h.current, h.continuation, h.pendingMark⟩
  | closeTable => exact h.flushTable
  | preBreak => exact h.addPre _
  | image name attributes => exact h.addImage attributes
  | rule => exact h.addRule

/-- Housekeeping writes at most a backtick before the next word. -/
theorem housekeeping (h : a.Unbroken) (hab : Housekeeping a b) : b.Unbroken := by
  cases hab with
  | quiet styles notices pendingMark codeDepth nestedTables table titleSerial inHead rawDepth
      hmark htable =>
    refine ⟨h.lines, h.current, h.continuation, ?_⟩
    rcases hmark with rfl | rfl | rfl
    · exact h.pendingMark
    · exact Text.isOneLine_nil
    · exact (by decide : Text.IsOneLine ['\x60'])
  | anchor attributes => exact h.recordAnchor attributes
  | newLine => exact h.newLine
  | blanks hnil hl n =>
    refine h.withLines (fun line hline => ?_) _ rfl
    rw [List.eq_of_mem_replicate hline]
    exact Text.isOneLine_nil
  | block => exact ⟨h.lines, h.current, h.continuation, h.pendingMark⟩

/-- Housekeeping one after the other. -/
theorem housekeepings (h : a.Unbroken) (hab : Housekeepings a b) : b.Unbroken := by
  induction hab with
  | refl => exact h
  | tail _ hb ih => exact ih.housekeeping hb

/-- **A token** puts no line break into a line. -/
theorem feed (h : flow.Unbroken) (token : Token) : (flow.feed settings token).Unbroken := by
  obtain ⟨acted, haction, hkeep⟩ := feed_turn settings flow token
  exact (h.action haction).housekeepings hkeep

/-- Tokens put no line break into a line. -/
theorem feedAll (h : flow.Unbroken) (tokens : List Token) :
    (flow.feedAll settings tokens).Unbroken := by
  induction tokens generalizing flow with
  | nil => exact h
  | cons token tokens ih => exact ih (h.feed token)

/-- **The end of a chapter** completes a line of preformatted text, a table and the current line. -/
theorem flush (h : flow.Unbroken) : (flow.flush settings).Unbroken := by
  have hpre : (if flow.context.inPre && flow.preLineOpen then flow.commitPre settings
      else flow).Unbroken := by
    split
    · exact h.commitPre
    · exact h
  have htable : ∀ {a : Flow}, a.Unbroken →
      (if a.context.table.inTable then a.flushTable settings else a).Unbroken := by
    intro a ha
    split
    · exact ha.flushTable
    · exact ha
  have hline : ∀ {a : Flow}, a.Unbroken →
      (if a.current.isEmpty then a else a.commit).Unbroken := by
    intro a ha
    split
    · exact ha
    · exact ha.commit
  exact hline (htable hpre)

end Unbroken

/-! ## (8) Pages -/

/-- The fresh state has no lines. -/
theorem unbroken_start : ({} : Flow).Unbroken :=
  ⟨fun _ h => absurd h List.not_mem_nil, Text.isOneLine_nil, Text.isOneLine_nil, Text.isOneLine_nil⟩

/-- **No line of a page holds a line break,** whatever the tokens hold. -/
theorem run_isOneLine (settings : Settings) (tokens : List Token) :
    ∀ line ∈ (run settings tokens).page.lines, line.IsOneLine := by
  intro line hline
  -- The lines of the page are those that are left at the end when blank ones are dropped.
  obtain ⟨blanks, hblanks, -⟩ :=
    exists_dropTrailingBlanks_append ((feedAll {} settings tokens).flush settings).page.lines
  have hend : ((feedAll {} settings tokens).flush settings).Unbroken :=
    (unbroken_start.feedAll tokens).flush
  refine hend.lines line ?_
  rw [hblanks]
  exact List.mem_append_left _ hline

end Flow

end ChapterLayout
