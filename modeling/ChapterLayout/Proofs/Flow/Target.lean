import ChapterLayout.Proofs.Flow.Paragraph
import ChapterLayout.Proofs.Flow.PlacedWord

/-! # Where the target of a link stands

An element within a line sets its anchor on the line that is being filled when its tag is read. The
line of its first word is only known later: a class of the element may open a title, which begins a
line of its own, and the word goes to the next line if it does not fit:

* **`titleGap`**, **`openTitle_lineIndex`** — the lines that the start of a title ends or adds;
* **`openTag_phrase`** — the opening tag of an element within a line;
* **`run_target`** — the anchor stands on the line of the first word, or so many lines before it. -/

namespace ChapterLayout

namespace Flow

variable {settings : Settings} {flow : Flow} {name id s word : Text}
  {attributes : List Attribute}

/-! ## (1) The start of a title -/

/-- The lines that the end of a line adds: the line that is being filled, or a blank one behind
text. -/
def endedLines (flow : Flow) : List Line :=
  if flow.current ≠ [] then [flow.current] else if flow.endsInText then [[]] else []

/-- The end of a line adds the lines that it ends. -/
theorem newLine_lines (flow : Flow) :
    flow.newLine.page.lines = flow.page.lines ++ flow.endedLines := by
  unfold endedLines
  by_cases hnil : flow.current = []
  · rw [if_neg (not_not_intro hnil)]
    by_cases hend : flow.endsInText = true
    · rw [newLine_of_endsInText hnil hend, if_pos hend]
      rfl
    · rw [newLine_of_not_endsInText hnil (by simpa using hend), if_neg hend, List.append_nil]
  · rw [newLine_of_begun hnil, if_pos hnil]
    rfl

/-- Behind a line that was begun the start of a title adds a blank line, and no line otherwise. -/
theorem newLine_newLine_lines (flow : Flow) :
    flow.newLine.newLine.page.lines =
      flow.newLine.page.lines ++ if flow.current ≠ [] then [[]] else [] := by
  rw [newLine_lines flow.newLine, endedLines, newLine_endsInText,
    if_neg (not_not_intro (newLine_current flow))]
  simp only [decide_eq_true_eq]

/-- How many lines the start of a title ends or adds: the line that is being filled and a blank one
behind it, or a blank line behind text. -/
def titleGap (flow : Flow) : Nat :=
  if flow.current ≠ [] then 2 else if flow.endsInText then 1 else 0

/-- **The start of a title** is set apart by a blank line. -/
theorem openTitle_lineIndex (flow : Flow) :
    flow.openTitle.lineIndex = flow.lineIndex + flow.titleGap := by
  show flow.newLine.newLine.page.lines.length = flow.page.lines.length + flow.titleGap
  rw [newLine_newLine_lines, newLine_lines, List.length_append, List.length_append, endedLines,
    titleGap, Nat.add_assoc]
  split_ifs <;> rfl

/-- How many lines a tag within a line ends or adds, which is none unless it opens a title. -/
def tagGap (flow : Flow) (settings : Settings) (attributes : List Attribute) : Nat :=
  if !flow.context.inTitle && opensTitle settings attributes then flow.titleGap else 0

/-! ## (2) The tag -/

/-- **The opening tag of an element within a line** records its anchor, puts its element on the
stack, and may open a title. -/
theorem openTag_phrase (hhead : flow.context.inHead = false)
    (hname : TagRole.ofName name = .inline) :
    flow.openTag settings name attributes =
      let pushed := (flow.recordAnchor attributes).pushElement settings name attributes
      if !flow.context.inTitle && opensTitle settings attributes then pushed.openTitle
      else pushed := by
  obtain ⟨anchors, hanchors⟩ := exists_recordAnchor flow attributes
  have htracks : flow.tracks name = true := tracks_of_shown hhead (by rw [hname]; rfl)
  have hblock : flow.openBlock settings (TagRole.ofName name) = flow := by rw [hname]; rfl
  rw [openTag_stacked htracks, hblock, hanchors]
  rfl

/-- **A target**: the anchor stands on the line that is being filled when the tag is read, and the
text behind it goes to the lines of the page. -/
theorem openTag_target (h : flow.TakesText) (hname : TagRole.ofName name = .inline)
    (hid : Attribute.nonempty? attributes "id".toList = some id)
    (hnew : flow.page.anchor? id = none) :
    (flow.openTag settings name attributes).TakesText ∧
      (flow.openTag settings name attributes).page.anchor? id = some (flow.lineIndex : Int) ∧
      (flow.openTag settings name attributes).lineIndex =
        flow.lineIndex + flow.tagGap settings attributes := by
  have hanchor := anchor?_recordAnchor hid hnew
  obtain ⟨anchors, hanchors⟩ := exists_recordAnchor flow attributes
  rw [openTag_phrase h.inHead hname, tagGap]
  rw [hanchors] at hanchor ⊢
  dsimp only
  split
  · -- The title changes only what lines are, and adds lines behind the anchor.
    set pushed := pushElement { flow with page := { flow.page with anchors } } settings name
      attributes with hpushed
    have htitle := (leadsOnlyTo_openTitle pushed).context
    refine ⟨?_, ?_, openTitle_lineIndex pushed⟩
    · constructor
      all_goals rw [htitle]
      · exact h.rawDepth
      · exact h.inHead
      · exact h.inPre
      · exact h.inTable
    · rw [(leadsOnlyTo_openTitle pushed).toSameRecords.anchor?_eq id]
      exact hanchor
  · exact ⟨⟨h.rawDepth, h.inHead, h.inPre, h.inTable⟩, hanchor, rfl⟩

/-! ## (3) The page -/

/-- **Where a target stands.** Its anchor stays on the line that is being filled when its tag is
read. The first word is on that line or behind the lines of the start of a title, or on the next one
if it does not fit behind the words there. -/
theorem run_target {tokens before after : List Token} {ws : List Text}
    (htokens : tokens = before ++ .opening name attributes :: .text s :: after)
    (hname : TagRole.ofName name = .inline)
    (hid : Attribute.nonempty? attributes "id".toList = some id)
    (hnew : ∀ token ∈ before, token.anchorName? ≠ some id)
    (hplace : (feedAll {} settings before).TakesText)
    (hwords : Text.words Text.isFlowBlank s = word :: ws)
    (hfresh :
      let opened := (feedAll {} settings before).openTag settings name attributes
      opened.hasWords = true → (opened.glue && !startsBlank s) = false) :
    let flow := feedAll {} settings before
    let opened := flow.openTag settings name attributes
    (run settings tokens).page.anchor? id = some (flow.lineIndex : Int) ∧
      opened.lineIndex = flow.lineIndex + flow.tagGap settings attributes ∧
      ∃ shown, opened.pendingMark ++ word <+: shown ∧
        ((run settings tokens).page.ShowsWord opened.lineIndex (opened.beforeWord settings) shown ∨
          (run settings tokens).page.ShowsWord (opened.lineIndex + 1) opened.continuation shown ∧
            opened.hasWords = true ∧
            settings.maxWidth < (Text.width (opened.beforeWord settings ++ shown) : Int)) := by
  intro flow opened
  have hnone : flow.page.anchor? id = none := anchor?_feedAll settings {} hnew
  obtain ⟨htakes, hanchor, hindex⟩ := @openTag_target settings _ _ _ _ hplace hname hid hnone
  have hopened : feedAll {} settings (before ++ [.opening name attributes]) = opened :=
    feedAll_append ..
  have hshown := @run_firstWord settings _ _ tokens (before ++ [.opening name attributes]) after ws
    (by simp [htokens]) (hopened ▸ htakes) hwords (hopened ▸ hfresh)
  have hgrows := growsTo_flush settings
    (show before ++ [.opening name attributes] <+: tokens from
      ⟨.text s :: after, by simp [htokens]⟩)
  rw [hopened] at hshown hgrows
  refine ⟨?_, hindex, hshown⟩
  -- The line of the anchor is not behind the line of the word, so it stays on the page.
  refine anchor?_trimPage (hgrows.anchors.lookup_eq_some hanchor) ?_
  have hle : flow.lineIndex ≤ opened.lineIndex := hindex.symm ▸ Nat.le_add_right _ _
  refine Nat.lt_of_le_of_lt hle ?_
  obtain ⟨shown, -, hhere | ⟨hbelow, -⟩⟩ := hshown
  · exact hhere.lt
  · exact Nat.lt_of_succ_lt hbelow.lt

end Flow

end ChapterLayout
