import ChapterLayout.Proofs.Flow.MarkedLines
import ChapterLayout.Proofs.Flow.Verbatim

/-! # Blank lines

Blank lines stand between blocks. A page begins with text, never has more blank lines in a row than
the spacing of paragraphs asks for, and after a paragraph it has exactly so many. Preformatted text
is left out, since its own lines may be blank:

* **`SpacedLines`** — lines with few enough blank ones in a row, by how many stand at the end;
* **`Flow.PutsText`** — steps that put no blank line on the page, as words do;
* **`Flow.Spaced`** — whether the page has few enough blank lines in a row; every operation keeps
  it, up to `Spaced.feed` and `Spaced.flush`;
* **`Flow.run_spacing`** — the lines of a chapter, and those after each of its paragraphs. -/

namespace ChapterLayout

/-! ## (1) Lines with few blank ones in a row -/

/-- Lines that begin with text and never have more than `limit` blank ones in a row. At the end they
have `n` blank ones. -/
inductive SpacedLines (limit : Nat) : (n : Nat) → List Line → Prop
  | nil : SpacedLines limit 0 []
  | text {n : Nat} {lines : List Line} (line : Line) (before : SpacedLines limit n lines)
      (hne : line ≠ []) : SpacedLines limit 0 (lines ++ [line])
  | blank {n : Nat} {lines : List Line} (before : SpacedLines limit n lines) (hlines : lines ≠ [])
      (hn : n < limit) : SpacedLines limit (n + 1) (lines ++ [[]])

namespace SpacedLines

variable {limit n m : Nat} {lines above below : List Line}

/-- Before the blank lines at the end there is a line with text. -/
theorem exists_append (h : SpacedLines limit n lines) (hne : lines ≠ []) :
    ∃ above line, line ≠ [] ∧ lines = above ++ line :: List.replicate n [] := by
  induction h with
  | nil => exact absurd rfl hne
  | text line before hline => exact ⟨_, line, hline, rfl⟩
  | blank before hlines _ ih =>
    obtain ⟨above, line, hline, heq⟩ := ih hlines
    refine ⟨above, line, hline, ?_⟩
    rw [heq, List.replicate_succ', List.append_assoc, List.cons_append]

/-- The index of the lines counts the blank ones at their end. -/
theorem count_eq (h : SpacedLines limit n lines) :
    (lines.reverse.takeWhile (·.isEmpty)).length = n := by
  induction h with
  | nil => rfl
  | text line before hne => simp [hne]
  | blank before _ _ ih => simp [ih]

/-- At the end there are not more blank lines than allowed. -/
theorem le_limit (h : SpacedLines limit n lines) : n ≤ limit := by
  cases h with
  | nil => exact Nat.zero_le _
  | text => exact Nat.zero_le _
  | blank _ _ hn => exact hn

/-- The first line is not blank. -/
theorem head?_ne (h : SpacedLines limit n lines) : lines.head? ≠ some [] := by
  have happend : ∀ {lines : List Line} (line : Line), lines ≠ [] →
      (lines ++ [line]).head? = lines.head? := fun line hne => List.head?_append_of_ne_nil _ hne
  induction h with
  | nil => exact fun h => nomatch h
  | @text n lines line before hne ih =>
    by_cases hlines : lines = []
    · simp [hlines, hne]
    · rwa [happend line hlines]
  | blank before hlines _ ih => rwa [happend [] hlines]

/-- Without blank lines at the end, the last line is not blank. -/
theorem getLast?_ne (h : SpacedLines limit 0 lines) : lines.getLast? ≠ some [] := by
  cases h with
  | nil => exact fun h => nomatch h
  | text line before hne => simp [hne]

/-- Behind text there is no blank line. -/
theorem eq_zero {line : Line} (h : SpacedLines limit n lines) (hlast : lines.getLast? = some line)
    (hne : line ≠ []) : n = 0 := by
  cases h with
  | nil => rfl
  | text => rfl
  | blank => simp_all

/-- The blank lines at the end are counted. -/
theorem end_le (h : SpacedLines limit n lines) (hend : lines = above ++ List.replicate m []) :
    m ≤ n := by
  induction h generalizing m with
  | nil => simp_all
  | text line before hne =>
    cases m with
    | zero => exact Nat.zero_le _
    | succ m =>
      rw [List.replicate_succ', ← List.append_assoc] at hend
      exact absurd (List.singleton_inj.1 (List.append_inj_right' hend rfl)) hne
  | blank before _ _ ih =>
    cases m with
    | zero => exact Nat.zero_le _
    | succ m =>
      rw [List.replicate_succ', ← List.append_assoc] at hend
      exact Nat.succ_le_succ (ih (List.append_inj_left' hend rfl))

/-- **No more blank lines in a row than the limit,** wherever they stand. -/
theorem run_le (h : SpacedLines limit n lines)
    (hrun : lines = above ++ List.replicate m [] ++ below) : m ≤ limit := by
  -- The induction takes lines away from below the blank ones until these are at the end.
  induction h generalizing below with
  | nil => simp_all
  | @text n lines line before hne ih =>
    rcases List.eq_nil_or_concat below with rfl | ⟨below, last, rfl⟩
    · rw [List.append_nil] at hrun
      exact (end_le (.text line before hne) hrun).trans (Nat.zero_le _)
    · rw [List.concat_eq_append, ← List.append_assoc] at hrun
      exact ih (List.append_inj_left' hrun rfl)
  | @blank n lines before hlines hn ih =>
    rcases List.eq_nil_or_concat below with rfl | ⟨below, last, rfl⟩
    · rw [List.append_nil] at hrun
      exact (end_le (.blank before hlines hn) hrun).trans hn
    · rw [List.concat_eq_append, ← List.append_assoc] at hrun
      exact ih (List.append_inj_left' hrun rfl)

/-- Lines with text go behind any others. -/
theorem append (h : SpacedLines limit n lines) (new : List Line) (hne : ∀ line ∈ new, line ≠ []) :
    ∃ m, SpacedLines limit m (lines ++ new) := by
  induction new generalizing n lines with
  | nil => exact ⟨n, by rwa [List.append_nil]⟩
  | cons line new ih =>
    obtain ⟨m, hm⟩ := ih (.text line h (hne line List.mem_cons_self))
      fun l hl => hne l (List.mem_cons_of_mem _ hl)
    exact ⟨m, by simpa using hm⟩

/-- Blank lines go behind text, as many as the limit allows. -/
theorem append_blanks (h : SpacedLines limit n lines) (hlines : lines ≠ [])
    (hm : n + m ≤ limit) : SpacedLines limit (n + m) (lines ++ List.replicate m []) := by
  induction m with
  | zero => rwa [List.replicate_zero, List.append_nil]
  | succ m ih =>
    rw [List.replicate_succ', ← List.append_assoc]
    exact .blank (ih (Nat.le_of_succ_le hm)) (by simp [hlines]) hm

/-- Without the blank lines at the end, the last line has text. -/
theorem dropTrailingBlanks (h : SpacedLines limit n lines) :
    SpacedLines limit 0 (Flow.dropTrailingBlanks lines) := by
  induction h with
  | nil => exact .nil
  | @text n lines line before hne =>
    have hkept : Flow.dropTrailingBlanks (lines ++ [line]) = lines ++ [line] := by
      simp [Flow.dropTrailingBlanks, hne]
    rw [hkept]
    exact .text line before hne
  | @blank n lines before _ _ ih =>
    have hdropped : Flow.dropTrailingBlanks (lines ++ [[]]) = Flow.dropTrailingBlanks lines := by
      simp [Flow.dropTrailingBlanks]
    rwa [hdropped]

end SpacedLines

/-- A tag that is not inline is in the table of roles. -/
theorem TagRole.mem_byName {name : Text} {role : TagRole} (h : TagRole.ofName name = role)
    (hrole : role ≠ .inline) : (name, role) ∈ TagRole.byName := by
  unfold TagRole.ofName at h
  cases hfound : TagRole.byName.lookup name with
  | none => exact absurd (by simpa [hfound] using h.symm) hrole
  | some found =>
    obtain ⟨_, _, heq, -⟩ := List.lookup_eq_some_iff.1 hfound
    rw [hfound, Option.getD_some] at h
    simp [heq, h]

/-- Only the tag of preformatted text opens preformatted text. -/
theorem TagRole.eq_of_ofName_pre {name : Text} (h : TagRole.ofName name = .pre) :
    name = "pre".toList := by
  have hall : ∀ entry ∈ TagRole.byName, entry.2 = .pre → entry.1 = "pre".toList := by decide
  exact hall _ (TagRole.mem_byName h (by decide)) rfl

namespace Flow

variable {settings : Settings} {flow a b c : Flow} {token : Token} {word : Text}

/-! ## (2) Steps that put no blank line on the page -/

/-- Whether a step puts lines with text on the page only. -/
def PutsText (a b : Flow) : Prop :=
  ∃ new, b.page.lines = a.page.lines ++ new ∧ ∀ line ∈ new, line ≠ []

/-- A step that leaves the lines alone puts no blank one on the page. -/
theorem putsText_of_lines (h : b.page.lines = a.page.lines) : PutsText a b :=
  ⟨[], by rw [h, List.append_nil], fun _ hline => absurd hline List.not_mem_nil⟩

/-- A step that adds a line with text puts no blank one on the page. -/
theorem putsText_of_line {line : Line} (h : b.page.lines = a.page.lines ++ [line])
    (hne : line ≠ []) : PutsText a b :=
  ⟨[line], h, fun _ hline => List.mem_singleton.1 hline ▸ hne⟩

/-- Two steps that put no blank line on the page. -/
theorem PutsText.trans (hab : PutsText a b) (hbc : PutsText b c) : PutsText a c := by
  obtain ⟨new, hlines, hnew⟩ := hab
  obtain ⟨new', hlines', hnew'⟩ := hbc
  refine ⟨new ++ new', by rw [hlines', hlines, List.append_assoc], fun line hline => ?_⟩
  exact (List.mem_append.1 hline).elim (hnew line) (hnew' line)

/-- A word that moves leaves a line that holds a word. -/
theorem Worded.putsText_fitWord (h : flow.Worded settings) :
    PutsText flow (flow.fitWord settings) := by
  rw [fitWord_eq]
  split
  · exact putsText_of_lines rfl
  · rename_i hmoves
    have hmovable : flow.wordMovable = true := by
      simp only [Bool.or_eq_true, not_or, Bool.not_eq_true', Bool.not_eq_false] at hmoves
      exact hmoves.2
    exact putsText_of_line rfl (h.broken_ne_nil hmovable)

/-- **A word** puts a line that holds a word on the page at most. -/
theorem Fitted.putsText_addWord (h : flow.Fitted settings)
    (hword : ∀ c ∈ word, Text.isFlowBlank c = false) (glue : Bool) :
    PutsText flow (flow.addWord settings word glue) := by
  by_cases hglue : (glue && flow.hasWords) = true
  · obtain ⟨rfl, hw⟩ := Bool.and_eq_true_iff.1 hglue
    have hletters := mark_isLetter h.begun.pendingMark hword
    have hworded : (flow.unmarked.place (flow.pendingMark ++ word)).Worded settings :=
      h.worded_append hw (isSpace_of_letter hletters) rfl rfl rfl rfl rfl
    rw [addWord_glued hw]
    exact hworded.putsText_fitWord
  · have hbegin : (flow.unmarked.beginLine settings).page.lines = flow.page.lines := by
      unfold beginLine
      split <;> rfl
    rw [addWord_fresh (by simpa using hglue)]
    rcases makeRoom_cases settings (flow.unmarked.beginLine settings)
      (flow.pendingMark ++ word) with ⟨hw, hroom⟩ | hroom
    · -- The line that is complete holds a word.
      rw [beginLine_hasWords] at hw
      have hsame : flow.unmarked.beginLine settings = flow.unmarked := beginLine_of_hasWords hw
      rw [hroom, hsame]
      exact putsText_of_line rfl (h.begun.word hw).2.current_ne_nil
    · rw [hroom]
      exact putsText_of_lines hbegin

/-- **Text** puts lines that hold a word on the page. -/
theorem Fitted.putsText_addText (h : flow.Fitted settings) (hpre : flow.context.inPre = false)
    (s : Text) : PutsText flow (flow.addText settings s) := by
  have hstart : flow.Fitted settings ∧ PutsText flow flow := ⟨h, putsText_of_lines rfl⟩
  refine (addText_preserves (P := fun b => b.Fitted settings ∧ PutsText flow b) s ?_ ?_ hstart).2
  · rintro a glue ⟨hfitted, hputs⟩
    exact ⟨hfitted.change (.glue a glue), hputs⟩
  · rintro a w glue hcontext hne hletter ⟨hfitted, hputs⟩
    exact ⟨hfitted.change (.word a (hcontext ▸ hpre) w hne hletter glue),
      hputs.trans (hfitted.putsText_addWord hletter glue)⟩

/-- The mark that ends inline code moves to the next line with its word. -/
theorem Fitted.putsText_closeCode (h : flow.Fitted settings) :
    PutsText flow (flow.closeCode settings) := by
  rw [closeCode_eq]
  split
  · exact putsText_of_lines rfl
  · split
    · exact putsText_of_lines rfl
    · split
      · rename_i hw
        have hleave : flow.leaveCode.Fitted settings :=
          h.change (.quiet flow _ _ _ _ _ _ _ _ _ _ _)
        have hworded : flow.leaveCode.atCodeEnd.Worded settings :=
          hleave.worded_append hw isSpace_codeMark rfl rfl rfl rfl rfl
        exact hworded.putsText_fitWord
      · exact putsText_of_lines rfl

/-! ## (3) Operations on lines -/

/-- Whether the page has few enough blank lines in a row. -/
def Spaced (settings : Settings) (flow : Flow) : Prop :=
  ∃ n, SpacedLines settings.typography.paragraphSpacing.toNat n flow.page.lines

/-- Whether an operation begins preformatted text. -/
def Operation.opensPre : Operation → Bool
  | .openPre => true
  | .enter role => role == .pre
  | _ => false

/-- Other operations stay outside preformatted text. -/
theorem perform_inPre {operation : Operation} (h : flow.context.inPre = false)
    (hopens : operation.opensPre = false) :
    (flow.perform settings operation).context.inPre = false := by
  have hsame : Part.pre ∉ operation.touched →
      (flow.perform settings operation).context.inPre = false := fun htouched =>
    Eq.trans (perform_same .pre settings flow htouched) h
  cases operation with
  | enter role =>
    refine hsame ?_
    cases role <;> simp_all [Operation.opensPre, Operation.touched, TagRole.touched]
  | leave role =>
    have hcontext : (flow.perform settings (.leave role)).context = role.leave flow.context :=
      (leadsOnlyTo_newLine_update flow role.leave).context
    rw [hcontext]
    cases role with
    | title =>
      rw [TagRole.leave]
      split <;> exact h
    | pre => rfl
    | _ => exact h
  | openPre => cases hopens
  | closePre =>
    rw [perform, closePre_eq, if_neg (by simp [h])]
    exact h
  | _ => exact hsame (by simp [Operation.touched])

/-- Paragraphs are set apart by one blank line at least. -/
theorem spacing_pos (settings : Settings) : 0 < settings.typography.paragraphSpacing.toNat := by
  have hpos := settings.typography_valid.paragraphSpacing_pos
  omega

/-- Steps that put no blank line on the page keep the blank lines few. -/
theorem PutsText.spaced (hputs : PutsText a b) (h : a.Spaced settings) : b.Spaced settings := by
  obtain ⟨new, hlines, hnew⟩ := hputs
  obtain ⟨n, hspaced⟩ := h
  rw [Spaced, hlines]
  exact hspaced.append new hnew

end Flow

open Flow in
/-- Preformatted text is not begun by any other token than its tag. -/
theorem Token.opensPre_of_mem_operations {token : Token}
    (h : ∀ attributes, token ≠ .opening "pre".toList attributes) :
    ∀ operation ∈ token.operations, operation.opensPre = false := by
  cases token with
  | text s => simp [operations, Operation.opensPre]
  | opening name attributes =>
    have hname : TagRole.ofName name ≠ .pre := fun hrole =>
      h attributes (congrArg (Token.opening · attributes) (TagRole.eq_of_ofName_pre hrole))
    simp only [operations]
    cases hrole : TagRole.ofName name <;> simp_all [TagRole.opening, Operation.opensPre]
  | closing name =>
    simp only [operations]
    cases hrole : TagRole.ofName name <;> simp_all [TagRole.closing, Operation.opensPre]
  | empty name attributes =>
    simp only [operations, emptyOperations]
    split_ifs <;> simp [Operation.opensPre]

namespace Flow

variable {settings : Settings} {flow a b c : Flow} {token : Token} {word : Text}

namespace Spaced

/-- The end of a line leaves one blank line at most, where the page ended in text. -/
theorem newLine (h : flow.Spaced settings) : flow.newLine.Spaced settings := by
  by_cases hnil : flow.current = []
  · by_cases hend : flow.endsInText = true
    · -- The blank line is the first one behind text.
      obtain ⟨n, hspaced⟩ := h
      have hlines := lines_ne_nil_of_endsInText hend
      have hn : n = 0 := by
        unfold endsInText at hend
        split at hend
        · rename_i line hlast
          exact hspaced.eq_zero hlast (by simpa using hend)
        · cases hend
      rw [newLine_of_endsInText hnil hend]
      exact ⟨_, .blank hspaced hlines (hn ▸ spacing_pos settings)⟩
    · rw [newLine_of_not_endsInText hnil (by simpa using hend)]
      exact h
  · rw [newLine_of_begun hnil]
    exact (putsText_of_line rfl hnil).spaced h

/-- **After a paragraph** the page ends in as many blank lines as the spacing asks for. -/
theorem paragraphBreak (h : flow.Spaced settings) :
    (flow.paragraphBreak settings).page.lines = [] ∨
      SpacedLines settings.typography.paragraphSpacing.toNat
        settings.typography.paragraphSpacing.toNat (flow.paragraphBreak settings).page.lines := by
  obtain ⟨n, hspaced⟩ := h.newLine
  unfold Flow.paragraphBreak
  by_cases hlines : flow.newLine.page.lines = []
  · exact .inl (by simp [hlines])
  · have hlines' : flow.newLine.page.lines.isEmpty = false := by simpa using hlines
    have hcount : flow.newLine.trailingBlanks = n := hspaced.count_eq
    have hle := hspaced.le_limit
    have hpos := spacing_pos settings
    simp only [hlines', Bool.false_eq_true, if_false, hcount]
    have hblanks := hspaced.append_blanks (m := (settings.typography.paragraphSpacing - n).toNat)
      hlines (by omega)
    have htotal : n + (settings.typography.paragraphSpacing - n).toNat =
        settings.typography.paragraphSpacing.toNat := by omega
    exact .inr (htotal ▸ hblanks)

/-- Anchors are recorded beside the lines. -/
theorem recordAnchor (h : flow.Spaced settings) (attributes : List Attribute) :
    (flow.recordAnchor attributes).Spaced settings := by
  obtain ⟨anchors, hanchors⟩ := exists_recordAnchor flow attributes
  rw [hanchors]
  exact h

/-- The start of an item ends the line before. -/
theorem startItem (h : flow.Spaced settings) : (flow.startItem settings).Spaced settings := by
  obtain ⟨spans, hitem⟩ := exists_atItem settings flow.newLine
  rw [startItem_eq, hitem]
  exact h.newLine

/-- The line of an image is not blank. -/
theorem addImage (h : flow.Spaced settings) (attributes : List Attribute) :
    (flow.addImage settings attributes).Spaced settings := by
  have hne := ne_nil_of_mem_imageLines flow.newLine settings attributes
  unfold Flow.addImage
  unfold imageLines at hne
  cases hsource : Attribute.nonempty? attributes "src".toList with
  | none => exact h
  | some source =>
    rw [hsource] at hne
    exact ((putsText_of_line rfl (hne _ List.mem_cons_self)).spaced h.newLine).newLine

/-- The line of a rule is not blank. -/
theorem addRule (h : flow.Spaced settings) : (flow.addRule settings).Spaced settings := by
  have hne := ne_nil_of_mem_ruleLines flow.newLine settings
  unfold Flow.addRule
  unfold ruleLines at hne
  dsimp only at hne ⊢
  split
  · rename_i hwidth
    rw [if_pos hwidth] at hne
    exact ((putsText_of_line rfl (hne _ List.mem_cons_self)).spaced h.newLine).newLine
  · exact h.newLine.newLine

/-- The lines of a table are not blank. -/
theorem flushTable (h : flow.Spaced settings) : (flow.flushTable settings).Spaced settings := by
  have hstart : (Flow.newLine { flow with nestedTables := 0 }).Spaced settings := newLine h
  unfold Flow.flushTable
  dsimp only
  refine newLine (PutsText.spaced ⟨_, (addTableLines_page _ _).1, ?_⟩ hstart)
  exact ne_nil_of_mem_draw _ _ _ _

/-! ## (4) Operations -/

/-- The start of a table ends the line before. -/
theorem openTable (h : flow.Spaced settings) : flow.openTable.Spaced settings := by
  unfold Flow.openTable
  split
  · exact h
  · exact h.newLine

/-- The end of a table puts its lines on the page, or only counts. -/
theorem closeTable (h : flow.Spaced settings) : (flow.closeTable settings).Spaced settings := by
  unfold Flow.closeTable
  split
  · exact h
  · split
    · exact h.flushTable
    · exact h

/-- Sections, rows and cells go to the draft of the table. -/
theorem changeTablePart (h : flow.Spaced settings) (name : Text) (closing : Bool) :
    (flow.changeTablePart name closing).Spaced settings := by
  unfold Flow.changeTablePart separateCell
  split
  · split <;> exact h
  · exact h

/-- The end of a title ends two lines. -/
theorem closeTitle (h : flow.Spaced settings) : flow.closeTitle.Spaced settings :=
  Spaced.newLine h.newLine

/-- The end of an element ends a title at most. -/
theorem popElement (h : flow.Spaced settings) (name : Text) :
    (flow.popElement name).Spaced settings := by
  unfold Flow.popElement
  cases flow.styles.pop? name with
  | none => exact h
  | some popped =>
    dsimp only
    split
    · exact closeTitle h
    · exact h

/-- A line break ends the line. -/
theorem breakLine (h : flow.Spaced settings) (hpre : flow.context.inPre = false) :
    (flow.breakLine settings).Spaced settings := by
  unfold Flow.breakLine
  split
  · exact h
  · rw [if_neg (by simp [hpre])]
    exact h.newLine

/-- **Text.** -/
theorem feedText (h : flow.Spaced settings) (hfitted : flow.Fitted settings)
    (hpre : flow.context.inPre = false) (s : Text) :
    (flow.feedText settings s).Spaced settings := by
  have hfitted' : (flow.collectHeading s).Fitted settings :=
    hfitted.changes (collectHeading_changes flow s)
  have hpre' : (flow.collectHeading s).context.inPre = false := by simpa using hpre
  have hcollect : (flow.collectHeading s).Spaced settings := by
    obtain ⟨headingText, hcollect⟩ := exists_collectHeading flow s
    rw [hcollect]
    exact h
  rw [feedText_eq]
  split
  · exact h
  · split
    · split <;> exact hcollect
    · rw [if_neg (by simp [hpre])]
      exact (hfitted'.putsText_addText hpre' s).spaced hcollect

/-- **An operation** outside preformatted text keeps the blank lines few. -/
theorem perform (h : flow.Spaced settings) (hfitted : flow.Fitted settings)
    (hpre : flow.context.inPre = false) (operation : Operation) :
    (flow.perform settings operation).Spaced settings := by
  cases operation with
  | text s => exact h.feedText hfitted hpre s
  | lineBreak => exact h.breakLine hpre
  | newLine => exact h.newLine
  | paragraphBreak =>
    -- A paragraph break on an empty page adds nothing, and else ends in the spacing of paragraphs.
    rcases h.paragraphBreak with hnil | hspaced
    · rw [Flow.perform, Spaced, hnil]
      exact ⟨0, .nil⟩
    · exact ⟨_, hspaced⟩
  | enter role => exact h.newLine
  | leave role => exact h.newLine
  | item => exact h.startItem
  | head begins => exact h
  | raw begins => exact h
  | openPre => exact h.newLine
  | closePre =>
    rw [Flow.perform, closePre_eq, if_neg (by simp [hpre])]
    exact h
  | openHeading level => exact h.newLine
  | closeHeading => exact h.newLine
  | openCode =>
    rw [Flow.perform, Flow.openBlock]
    split <;> exact h
  | closeCode =>
    rw [Flow.perform, Flow.closeBlock]
    split
    · exact h
    -- The closing mark is text on the line that is being filled.
    · exact hfitted.putsText_closeCode.spaced h
  | openTitle attributes =>
    rw [Flow.perform]
    -- A title that its class asks for ends the line twice, so that a blank line stands before it.
    split
    · exact Spaced.newLine h.newLine
    · exact h
  | closeTitle =>
    rw [Flow.perform, Flow.closeBlock]
    split
    · exact h.closeTitle
    · exact h
  | openTable => exact h.openTable
  | closeTable => exact h.closeTable
  | tablePart name closing => exact h.changeTablePart name closing
  | image attributes => exact h.addImage attributes
  | rule => exact h.addRule
  | anchor attributes => exact h.recordAnchor attributes
  | push name attributes => exact h
  | pop name => exact h.popElement name

/-- **Operations** outside preformatted text keep the blank lines few, if none of them begins it. -/
theorem performAll {operations : List Operation} (h : flow.Spaced settings)
    (hfitted : flow.Fitted settings) (hpre : flow.context.inPre = false)
    (hopens : ∀ operation ∈ operations, operation.opensPre = false) :
    (flow.performAll settings operations).Spaced settings ∧
      (flow.performAll settings operations).context.inPre = false := by
  induction operations generalizing flow with
  | nil => exact ⟨h, hpre⟩
  | cons operation operations ih =>
    obtain ⟨hfirst, hrest⟩ := List.forall_mem_cons.1 hopens
    exact ih (h.perform hfitted hpre operation) (hfitted.changes (perform_changes flow operation))
      (perform_inPre hpre hfirst) hrest

/-- **A token** keeps the blank lines few, unless it begins preformatted text. -/
theorem feed (h : flow.Spaced settings) (hfitted : flow.Fitted settings)
    (hpre : flow.context.inPre = false)
    (htoken : ∀ attributes, token ≠ .opening "pre".toList attributes) :
    (flow.feed settings token).Spaced settings ∧
      (flow.feed settings token).context.inPre = false := by
  rw [feed_eq_performAll]
  split
  · exact ⟨h, hpre⟩
  · exact h.performAll hfitted hpre (Token.opensPre_of_mem_operations htoken)

/-- **The end of a chapter** keeps the blank lines few. -/
theorem flush (h : flow.Spaced settings) (hpre : flow.context.inPre = false) :
    (flow.flush settings).Spaced settings := by
  by_cases hin : flow.context.table.inTable = true
  · rw [flush_of_inTable hin, flushPre, if_neg (by simp [hpre])]
    exact h.flushTable
  · rw [flush_eq (by simpa using hin)]
    simp only [hpre, Bool.false_eq_true, if_false]
    split
    · exact h
    · rename_i hne
      exact (putsText_of_line rfl (by simpa using hne)).spaced h

end Spaced

/-! ## (5) Runs -/

/-- Tokens keep the blank lines few. -/
theorem Spaced.feedAll (tokens : List Token) (h : flow.Spaced settings)
    (hfitted : flow.Fitted settings) (hpre : flow.context.inPre = false)
    (htokens : ∀ attributes, Token.opening "pre".toList attributes ∉ tokens) :
    (flow.feedAll settings tokens).Spaced settings ∧
      (flow.feedAll settings tokens).context.inPre = false := by
  induction tokens generalizing flow with
  | nil => exact ⟨h, hpre⟩
  | cons token tokens ih =>
    obtain ⟨hspaced, hpre⟩ := h.feed hfitted hpre fun attributes heq =>
      htokens attributes (heq ▸ List.mem_cons_self)
    exact ih hspaced (hfitted.changes (feed_changes flow token)) hpre fun attributes hmem =>
      htokens attributes (List.mem_cons_of_mem _ hmem)

/-- Whatever tokens come first, the page has few enough blank lines, if none of them begins
preformatted text. -/
theorem spaced_feedAll (settings : Settings) {tokens : List Token}
    (htokens : ∀ attributes, Token.opening "pre".toList attributes ∉ tokens) :
    (feedAll {} settings tokens).Spaced settings ∧
      (feedAll {} settings tokens).context.inPre = false :=
  Spaced.feedAll tokens ⟨0, .nil⟩ (fitted_feedAll settings []) rfl htokens

/-- **The end of a paragraph.** Outside the head of a document the page ends in as many blank lines
as the spacing asks for, unless it is empty. -/
theorem Spaced.closeTag_paragraph (h : flow.Spaced settings)
    (hhead : flow.context.inHead = false) :
    (flow.closeTag settings "p".toList).page.lines = [] ∨
      SpacedLines settings.typography.paragraphSpacing.toNat
        settings.typography.paragraphSpacing.toNat
        (flow.closeTag settings "p".toList).page.lines := by
  have hrole : TagRole.ofName "p".toList = .paragraph := by decide
  have hnil : (flow.paragraphBreak settings).current = [] := by
    obtain ⟨n, hbreak, -⟩ := exists_paragraphBreak_blanks settings flow
    rw [hbreak]
    exact newLine_current flow
  have hend : (flow.paragraphBreak settings).endsInText = false := by
    rcases h.paragraphBreak with hlines | hspaced
    · simp [endsInText, hlines]
    · unfold endsInText
      split
      · rename_i line hlast
        have hpos := spacing_pos settings
        by_contra hne
        have hzero := hspaced.eq_zero hlast (by simpa using hne)
        omega
      · rfl
  rw [closeTag_stacked (tracks_of_shown hhead (by decide)), hrole, Flow.closeBlock,
    (popElement_between "p".toList hnil hend).1]
  exact h.paragraphBreak

/-- **Blank lines are normalized.** Without preformatted text, the lines of a chapter neither begin
nor end with a blank one, and never have more blank ones in a row than the spacing of paragraphs.
Behind every end of a paragraph outside the head of the document, the page is empty or ends in
exactly as many blank lines as the spacing. -/
theorem run_spacing (settings : Settings) (tokens : List Token)
    (htokens : ∀ attributes, Token.opening "pre".toList attributes ∉ tokens) :
    let spacing := settings.typography.paragraphSpacing.toNat
    let lines := (run settings tokens).page.lines
    (lines.head? ≠ some [] ∧ lines.getLast? ≠ some [] ∧
      ∀ above m below, lines = above ++ List.replicate m [] ++ below → m ≤ spacing) ∧
    ∀ before after, tokens = before ++ .closing "p".toList :: after →
      (feedAll {} settings before).context.inHead = false →
        (feedAll {} settings (before ++ [.closing "p".toList])).page.lines = [] ∨
          ∃ above line, line ≠ [] ∧
            (feedAll {} settings (before ++ [.closing "p".toList])).page.lines =
              above ++ line :: List.replicate spacing [] := by
  intro spacing lines
  refine ⟨?_, fun before after hsplit hhead => ?_⟩
  -- No run of blank lines is longer than the spacing, in no state that can be reached.
  · obtain ⟨hspaced, hpre⟩ := spaced_feedAll settings htokens
    obtain ⟨n, hflushed⟩ := hspaced.flush hpre
    have hlines : SpacedLines spacing 0 lines := hflushed.dropTrailingBlanks
    exact ⟨hlines.head?_ne, hlines.getLast?_ne, fun above m below => hlines.run_le⟩
  -- The state behind the closing tag is one of its own, reached by the tokens up to it.
  · have hbefore : ∀ attributes, Token.opening "pre".toList attributes ∉ before :=
      fun attributes hmem => htokens attributes (hsplit ▸ List.mem_append_left _ hmem)
    have hended : feedAll {} settings (before ++ [.closing "p".toList]) =
        (feedAll {} settings before).closeTag settings "p".toList := by
      rw [feedAll, List.foldl_append]
      rfl
    have hparagraph := (spaced_feedAll settings hbefore).1.closeTag_paragraph hhead
    rw [hended]
    by_cases hnil : ((feedAll {} settings before).closeTag settings "p".toList).page.lines = []
    · exact .inl hnil
    · exact .inr ((hparagraph.resolve_left hnil).exists_append hnil)

/-- Two paragraphs and a rule between them, with two blank lines after every paragraph. -/
theorem run_spacing_rule :
    let settings : Settings := { typography := { paragraphSpacing := 2 } }
    let before : List Token :=
      [.opening "p".toList [], .text "One".toList, .closing "p".toList, .empty "hr".toList [],
        .opening "p".toList [], .text "Two".toList]
    let lines := (run settings (before ++ [.closing "p".toList])).page.lines
    ((∀ attributes,
        Token.opening "pre".toList attributes ∉ before ++ [.closing "p".toList]) ∧
      (feedAll {} settings before).context.inHead = false ∧
      (feedAll {} settings (before ++ [.closing "p".toList])).page.lines ≠ []) ∧
    (lines.head? ≠ some [] ∧ lines.getLast? ≠ some [] ∧
      ∀ above m below, lines = above ++ List.replicate m [] ++ below → m ≤ 2) ∧
    ∃ above line, line ≠ [] ∧
      (feedAll {} settings (before ++ [.closing "p".toList])).page.lines =
        above ++ line :: [[], []] := by
  intro settings before lines
  have htokens : ∀ attributes,
      Token.opening "pre".toList attributes ∉ before ++ [.closing "p".toList] := by
    simp [before]
  have hhead : (feedAll {} settings before).context.inHead = false := by decide
  have hne : (feedAll {} settings (before ++ [.closing "p".toList])).page.lines ≠ [] := by decide
  obtain ⟨hlines, hended⟩ := run_spacing settings (before ++ [.closing "p".toList]) htokens
  exact ⟨⟨htokens, hhead, hne⟩, hlines, (hended before [] rfl hhead).resolve_left hne⟩

end Flow

end ChapterLayout
