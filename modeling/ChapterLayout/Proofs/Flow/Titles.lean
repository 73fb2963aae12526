import ChapterLayout.Proofs.Flow.Bounds

/-! # The lines of titles

A line that is put on the page within a title is centred, exempt from justification, and highlighted
as a whole by a span of its own. Words of the title may be highlighted on their own account, and the
last of them may move to the next line with its spans, but nothing takes back what was recorded of a
line on the page:

* **`Flow.Titled`** — every line that is centred is exempt and has the span of a title;
* **`Flow.Titled.change`** — changes keep that, whatever they do to the line that is being filled;
* **`Flow.run_titled`** — when spans are merged, a centred line with text has one span of a title,
  which stands over the whole line. -/

namespace ChapterLayout

/-- Whether a line is exempt, and if it has text, highlighted as a title once and as a whole. -/
structure Page.TitleLine (page : Page) (i : Int) : Prop where
  exempt : i ∈ page.noJustify
  highlight : ∀ line, lineAt? page.lines i = some line → line ≠ [] →
    page.highlights.filter (fun s => s.line = i ∧ s.group = Group.title) =
      [⟨i, 0, line.length, Group.title⟩]

namespace Flow

variable {settings : Settings} {flow a b : Flow} {word : Text} {lines : List Line} {line : Line}
  {spans : List Span} {s : Span} {n : Nat}

/-! ## (1) States -/

/-- Whether a line of the page is exempt and highlighted as a title, all of it. -/
def IsTitle (flow : Flow) (i : Int) : Prop :=
  i ∈ flow.page.noJustify ∧ ∃ (n : Nat) (line : Line), i = n ∧
    flow.page.lines[n]? = some line ∧ ⟨n, 0, line.length, Group.title⟩ ∈ flow.spans

/-- Whether every line that is centred is the line of a title. -/
def Titled (flow : Flow) : Prop := ∀ i ∈ flow.page.centered, flow.IsTitle i

/-- Lines, exempt lines and spans are only added. -/
theorem IsTitle.keep {i : Int} (h : a.IsTitle i) (hlines : a.page.lines <+: b.page.lines)
    (hset : ∀ i ∈ a.page.noJustify, i ∈ b.page.noJustify) (hspans : a.spans <+: b.spans) :
    b.IsTitle i := by
  obtain ⟨hexempt, n, line, hn, hline, hspan⟩ := h
  obtain ⟨more, hmore⟩ := hlines
  refine ⟨hset i hexempt, n, line, hn, ?_, hspans.subset hspan⟩
  rw [← hmore, List.getElem?_append_left (List.getElem?_eq_some_iff.1 hline).1]
  exact hline

/-- And no line is centred. -/
theorem Titled.keep (h : a.Titled) (hcentered : b.page.centered = a.page.centered)
    (hlines : a.page.lines <+: b.page.lines)
    (hset : ∀ i ∈ a.page.noJustify, i ∈ b.page.noJustify) (hspans : a.spans <+: b.spans) :
    b.Titled := by
  intro i hi
  rw [hcentered] at hi
  exact (h i hi).keep hlines hset hspans

/-- **A line of a title** is centred, exempt and highlighted when it is put on the page. -/
theorem Titled.commit (h : flow.Titled) : flow.commit.Titled := by
  obtain ⟨hset, hexempt⟩ := commit_noJustify flow
  have hlines : flow.page.lines <+: flow.commit.page.lines := List.prefix_append _ _
  -- In a title the line is centred, and exempt and highlighted with it.
  by_cases htitle : flow.context.inTitle = true
  · have hcentered : flow.commit.page.centered =
        flow.page.centered.insert flow.lineIndex := by
      simp [Flow.commit, htitle]
    have hspans : flow.commit.spans =
        flow.spans ++ [⟨flow.lineIndex, 0, flow.current.length, Group.title⟩] := by
      simp [Flow.commit, htitle]
    intro i hi
    rw [hcentered, LineSet.mem_insert] at hi
    rcases hi with rfl | hi
    · refine ⟨hexempt (keepsSpacing_of_inTitle htitle), flow.lineIndex, flow.current, rfl, ?_, ?_⟩
      · show (flow.page.lines ++ [flow.current])[flow.page.lines.length]? = some flow.current
        rw [List.getElem?_append_right (Nat.le_refl _), Nat.sub_self]
        rfl
      · rw [hspans]
        exact List.mem_append_right _ (List.mem_singleton.2 rfl)
    · apply (h i hi).keep hlines hset
      rw [hspans]
      exact List.prefix_append _ _
  · apply h.keep
    · simp [Flow.commit, htitle]
    · exact hlines
    · exact hset
    · simp [Flow.commit, htitle]

/-! ## (2) Words -/

/-- The spans of titles stand before those of the last word, which is on no line of the page. -/
theorem Titled.takeSpans (h : flow.Titled) (hmarks : flow.MarksWord) (current : Line)
    (links : List Link) :
    Titled { flow with
      current, spans := flow.spans.take flow.spanMark, page := { flow.page with links } } := by
  intro i hi
  obtain ⟨hexempt, n, line, hn, hline, hspan⟩ := h i hi
  refine ⟨hexempt, n, line, hn, hline, ?_⟩
  have hlt : n < flow.page.lines.length := (List.getElem?_eq_some_iff.1 hline).1
  rw [← List.take_append_drop flow.spanMark flow.spans] at hspan
  rcases List.mem_append.1 hspan with hbefore | hbehind
  · exact hbefore
  · obtain ⟨hindex, -⟩ := hmarks.spans.behind _ hbehind
    have hindex' : (n : Int) = flow.lineIndex := hindex
    rw [lineIndex] at hindex'
    omega

/-- **A word that moves** leaves the spans of titles behind. -/
theorem Titled.fitWord (h : flow.Titled) (hmarks : flow.MarksWord) :
    (flow.fitWord settings).Titled := by
  rw [fitWord_eq]
  split
  · exact h
  · obtain ⟨-, hspans, -⟩ := moveWord_records flow
    have hbroken : flow.broken.Titled := (h.takeSpans hmarks _ _).commit
    apply hbroken.keep
    · rfl
    · exact List.prefix_rfl
    · exact fun _ hi => hi
    · rw [hspans]
      exact List.prefix_append _ _

/-- A piece of the last word is put at the end of the line. -/
theorem Titled.lengthen (h : a.Titled) (hl : Lengthens a b) : b.Titled := by
  obtain ⟨added, hspans, -⟩ := hl.spans
  apply h.keep
  · rw [hl.page]
  · rw [hl.page]
  · rw [hl.page]
    exact fun _ hi => hi
  · rw [hspans]
    exact List.prefix_append _ _

/-- Where room is made for a word, the line may be put on the page. -/
theorem Titled.ready (h : flow.Titled) (word : Text) :
    ((flow.unmarked.beginLine settings).makeRoom settings word).startWord.Titled := by
  have hbegin : (flow.unmarked.beginLine settings).Titled := by
    rcases beginLine_cases settings flow.unmarked with ⟨-, -, hbegin⟩ | hbegin
    · rw [hbegin]
      exact h
    · rw [hbegin]
      exact h
  rcases makeRoom_cases settings (flow.unmarked.beginLine settings) word with ⟨-, hroom⟩ | hroom
  · rw [hroom]
    exact hbegin.commit
  · rw [hroom]
    exact hbegin

/-- **A word** leaves the lines of titles alone, wherever it is put. -/
theorem Titled.addWord (h : flow.Titled) (hs : Sound settings flow) (hne : word ≠ [])
    (glue : Bool) : (flow.addWord settings word glue).Titled := by
  have hne' : flow.pendingMark ++ word ≠ [] := List.append_ne_nil_of_right_ne_nil _ hne
  by_cases hglue : (glue && flow.hasWords) = true
  · obtain ⟨rfl, hw⟩ := Bool.and_eq_true_iff.1 hglue
    have hword : flow.unmarked.MarksWord :=
      ⟨(hs.marks hw).start_le, (hs.marks hw).spans, (hs.marks hw).links⟩
    have hunmarked : flow.unmarked.Titled := h
    have hplace := lengthens_place flow.unmarked hne'
    rw [addWord_glued hw]
    exact (hunmarked.lengthen hplace).fitWord (hplace.marksWord hword)
  · rw [addWord_fresh (by simpa using hglue)]
    exact (h.ready _).lengthen (lengthens_place _ hne')

/-! ## (3) Changes -/

/-- A line of its own is exempt in any case, and centred if it stands in a title. -/
theorem Titled.commitBlock (h : flow.Titled) (s : Text) (group : Group) :
    (flow.commitBlock s group).Titled := by
  have hbegun : Titled
      (({ flow with current := s }).addSpan (s.takeWhile isIndentChar).length s.length group) := by
    apply h.keep
    · rfl
    · exact List.prefix_rfl
    · exact fun _ hi => hi
    · exact List.prefix_append _ _
  apply hbegun.commit.keep
  · rfl
  · exact List.prefix_rfl
  · exact fun i hi => LineSet.mem_insert.2 (.inr hi)
  · exact List.prefix_rfl

/-- Centred lines are still those of titles after a line of preformatted text. -/
theorem Titled.commitPre (h : flow.Titled) : (flow.commitPre settings).Titled := by
  have hstart : Titled { flow with current := flow.preStart settings } := h
  have hmarked : (flow.preMarked settings).Titled := by
    unfold preMarked
    dsimp only
    split
    · exact hstart
    · apply hstart.keep
      · rfl
      · exact List.prefix_rfl
      · exact fun _ hi => hi
      · exact List.prefix_append _ _
  rw [commitPre_eq]
  exact hmarked.commit

/-- **Changes** leave the lines of titles alone. -/
theorem Titled.change (h : a.Titled) (hs : Sound settings a) (hc : Change settings a b) :
    b.Titled := by
  cases hc with
  | quiet => exact h
  | anchor attributes =>
    obtain ⟨anchors, hanchors⟩ := exists_recordAnchor a attributes
    rw [hanchors]
    exact h
  | heading => exact h
  | headingLine => exact h
  | pendingMark => exact h
  | commit => exact h.commit
  | blank => exact h.keep rfl (List.prefix_append _ _) (fun _ hi => hi) List.prefix_rfl
  | reset => exact h
  | block => exact h
  | leavePre => exact h
  -- The marker of an item puts a span at the end of the spans at most.
  | item =>
    unfold atItem
    dsimp only
    split
    · exact h
    · exact h.keep rfl List.prefix_rfl (fun _ hi => hi) (List.prefix_append _ _)
  | word hpre word hne hletters glue => exact h.addWord hs hne glue
  | codeEnd hw =>
    have hend := lengthens_atCodeEnd a hw
    exact (h.lengthen hend).fitWord (hend.marksWord (hs.marks hw))
  | piece hpre piece hne =>
    rw [addPiece_of_ne_nil hne]
    exact h
  | commitPre => exact h.commitPre
  | image hnil source alt => exact h.commitBlock (a.indent settings ++ imageLabel alt) Group.image
  | rule => exact h.commitBlock _ _
  | tableLine =>
    apply h.keep
    · rfl
    · exact List.prefix_append _ _
    · exact fun i hi => LineSet.mem_insert.2 (.inr hi)
    · exact List.prefix_rfl

/-! ## (4) Merged spans -/

/-- A span of a title stands inside its line. -/
theorem title_columns (h : Places lines (.spans True) 0 spans) (hs : s ∈ spans)
    (hgroup : s.group = Group.title) (hn : s.line = n) (hline : lines[n]? = some line) :
    0 ≤ s.startCol ∧ s.startCol ≤ s.endCol ∧ s.endCol ≤ line.length := by
  rcases h s hs with ⟨-, hlost⟩ | ⟨k, other, hk, hother, hfits⟩ | ⟨-, hin⟩
  · exact absurd (hgroup.symm.trans hlost) (by decide)
  · obtain rfl : k = n := Int.ofNat.inj (hk.symm.trans hn)
    obtain rfl : other = line := Option.some.inj (hother.symm.trans hline)
    rcases hfits with ⟨hstart, hcols, hend⟩ | ⟨-, -, hstart, hend⟩
    · exact ⟨hstart, hcols.le, hend⟩
    · have hstart' : s.startCol = 0 := hstart
      have hend' : s.endCol = 0 := hend
      omega
  · exact (not_within_zero hin).elim

/-- A merged span of a title stands inside its line too. -/
theorem merged_title_columns (h : Places lines (.spans True) 0 spans) (hs : s ∈ mergeSpans spans)
    (hgroup : s.group = Group.title) (hn : s.line = n) (hline : lines[n]? = some line) :
    0 ≤ s.startCol ∧ s.startCol ≤ s.endCol ∧ s.endCol ≤ line.length := by
  obtain ⟨⟨first, hfirst, hrow, hstart, hle⟩, ⟨last, hlast, hrow', hend⟩, -⟩ :=
    mergedFrom_mergeSpans hs
  obtain ⟨hzero, hcols, -⟩ :=
    title_columns h hfirst (hrow.2.trans hgroup) (hrow.1.trans hn) hline
  obtain ⟨-, -, hlength⟩ := title_columns h hlast (hrow'.2.trans hgroup) (hrow'.1.trans hn) hline
  omega

/-- **A line that is highlighted as a whole** has no other span of a title once spans are merged. -/
theorem filter_title_eq (h : Places lines (.spans True) 0 spans) (hline : lines[n]? = some line)
    (hspan : ⟨n, 0, line.length, Group.title⟩ ∈ spans) :
    (mergeSpans spans).filter (fun s => s.line = (n : Int) ∧ s.group = Group.title) =
      [⟨n, 0, line.length, Group.title⟩] := by
  obtain ⟨m, hm, ⟨hn, hgroup⟩, hstart, hend⟩ := exists_mergeSpans_covering hspan
  obtain ⟨hzero, -, hlength⟩ := merged_title_columns h hm hgroup hn hline
  -- What covers the line and stands inside it is the line.
  obtain rfl : m = ⟨n, 0, line.length, Group.title⟩ := by
    cases m
    cases hn
    cases hgroup
    have hstart' := le_antisymm hstart hzero
    have hend' := le_antisymm hlength hend
    cases hstart'
    cases hend'
    rfl
  refine filter_row_eq (pairwise_mergeSpans spans) hm fun s hs hrow => ?_
  exact merged_title_columns h hs hrow.2 hrow.1 hline

/-- **The centred lines of a layout** are exempt, and those with text are highlighted as titles once
and as a whole. -/
theorem run_titled (settings : Settings) (tokens : List Token) :
    ∀ i ∈ (run settings tokens).page.centered, (run settings tokens).page.TitleLine i := by
  have hempty : Titled {} := fun i hi => absurd hi List.not_mem_nil
  obtain ⟨hsound, hflushed⟩ := flush_invariant settings hempty
    (fun hs hc h => h.change hs hc) tokens
  obtain ⟨hspans, -⟩ := hsound.bounds.toBounded.page (flush_current settings _)
  intro i hi
  obtain ⟨hexempt, n, line, rfl, hline, hspan⟩ := hflushed i hi
  refine ⟨hexempt, fun shown hshown hne => ?_⟩
  -- The lines with text are all kept when the page is completed.
  have hkept : n < (run settings tokens).page.lines.length →
      (run settings tokens).page.lines[n]? = some line := getElem?_dropTrailingBlanks hline
  rw [lineAt?_natCast] at hshown
  rw [hkept (List.getElem?_eq_some_iff.1 hshown).1] at hshown
  rw [← Option.some.inj hshown]
  exact filter_title_eq hspans hline hspan

end Flow

end ChapterLayout
