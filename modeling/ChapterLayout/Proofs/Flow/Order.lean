import ChapterLayout.Proofs.Flow.Bounds

/-! # Records come in the order of their lines

The records of a page are listed in the order in which they are made, and nothing sorts them. They
come in the order of the page all the same: a heading is recorded when it ends, but on the line
where the last heading was begun; an image is recorded together with its line; and the links of a
word are recorded at the end of the line, or cut out and put back at the end if the word moves:

* **`InOrder`** — whether records come in the order of their lines and columns;
* **`Flow.inOrder_place`**, **`Flow.inOrder_moveWord`** — words keep their links in order;
* **`Flow.Ordered`** — what a state promises about the order of its records;
* **`Flow.run_inOrder`** — the records of a layout come in order. -/

namespace ChapterLayout

section Records

variable {ρ : Type} [Positioned ρ] {records added : List ρ} {a b : ρ} {lines : List Line}
  {mark cols : Nat} {line col shift : Int}

/-! ## (1) Records in order -/

/-- Whether a record stands on an earlier line than another one, or on the same line and does not
start behind it. -/
def Precedes (a b : ρ) : Prop :=
  Positioned.line a < Positioned.line b ∨
    Positioned.line a = Positioned.line b ∧ Positioned.startCol a ≤ Positioned.startCol b

/-- Whether records come in the order of their lines and columns. -/
def InOrder (records : List ρ) : Prop := records.Pairwise Precedes

/-- Records that start at one column of a line are in any order. -/
theorem inOrder_of_columns
    (h : ∀ r ∈ records, Positioned.line r = line ∧ Positioned.startCol r = col) :
    InOrder records := by
  apply List.pairwise_of_forall_mem_list
  intro a ha b hb
  obtain ⟨hline, hstart⟩ := h a ha
  obtain ⟨hline', hstart'⟩ := h b hb
  right
  omega

/-- A record that has to stand inside its line stands on the page or on the next line. -/
theorem Places.line_lt_or (h : Places lines (.strict ρ) cols records) (ha : a ∈ records) :
    Positioned.line a < lines.length ∨ Positioned.line a = lines.length ∧ Within cols a := by
  rcases h a ha with hlost | ⟨n, line, hn, hline, -⟩ | hnext
  · exact hlost.elim
  · obtain ⟨hlt, -⟩ := List.getElem?_eq_some_iff.1 hline
    left
    omega
  · exact .inr hnext

/-- Behind the columns of the next line all records are passed. -/
theorem Places.precedes (h : Places lines (.strict ρ) cols records) (ha : a ∈ records)
    (hline : Positioned.line b = lines.length) (hstart : (cols : Int) ≤ Positioned.startCol b) :
    Precedes a b := by
  rcases h.line_lt_or ha with hlt | ⟨hnext, -, hcols, hend⟩
  · left
    omega
  · right
    omega

/-- Records that are added behind all others stay in order. -/
theorem InOrder.append (h : InOrder records) (hadded : InOrder added)
    (hbehind : ∀ a ∈ records, ∀ b ∈ added, Precedes a b) : InOrder (records ++ added) :=
  List.pairwise_append.2 ⟨h, hadded, hbehind⟩

/-- **Records behind a mark** move to the next line in order. -/
theorem InOrder.relocate (h : InOrder records) (hmark : MarksTail records mark line col)
    (hle : ∀ r ∈ records, Positioned.line r ≤ line) {relocated : ρ → ρ}
    (hmove : Relocates relocated (line + 1) shift) :
    InOrder (records.take mark ++ (records.drop mark).map relocated) := by
  apply InOrder.append
  · exact h.sublist (List.take_sublist _ _)
  · have hdrop : InOrder (records.drop mark) := h.sublist (List.drop_sublist _ _)
    apply List.pairwise_map.2
    refine hdrop.imp_of_mem fun {a b} ha hb hab => ?_
    -- All of them stood on one line, so only their columns tell them apart.
    obtain ⟨hline, -⟩ := hmark.behind a ha
    obtain ⟨hline', -⟩ := hmark.behind b hb
    obtain ⟨hnew, hstart, -⟩ := hmove a
    obtain ⟨hnew', hstart', -⟩ := hmove b
    right
    rcases hab with hlt | ⟨-, hcol⟩
    · omega
    · omega
  · intro a ha b hb
    obtain ⟨r, -, rfl⟩ := List.mem_map.1 hb
    have hline := hle a (List.take_subset _ _ ha)
    have hnew := (hmove r).1
    left
    omega

end Records

/-- Whether the records of a page come in the order of its lines. -/
structure Page.InOrder (page : Page) : Prop where
  headings : page.headings.Pairwise fun a b => a.line ≤ b.line
  images : page.images.Pairwise fun a b => a.line < b.line
  links : ChapterLayout.InOrder page.links

namespace Flow

variable {settings : Settings} {flow a b : Flow} {word : Text}

/-! ## (2) Words -/

/-- **The links of a word** come behind all others. -/
theorem inOrder_place (h : InOrder flow.page.links)
    (hplaces : Places flow.page.lines (.strict Link) flow.current.length flow.page.links)
    (word : Text) : InOrder (flow.place word).page.links := by
  obtain ⟨-, hcolumns⟩ := emitWord_columns flow.styles.active flow.lineIndex flow.current.length
    (flow.place word).current.length
  apply h.append
  · apply inOrder_of_columns
    intro r hr
    obtain ⟨hline, hstart, -⟩ := hcolumns r hr
    exact ⟨hline, hstart⟩
  · intro r hr r' hr'
    obtain ⟨hline, hstart, -⟩ := hcolumns r' hr'
    exact hplaces.precedes hr hline hstart.ge

/-- **A word that moves** takes its links along in order. -/
theorem inOrder_moveWord (h : InOrder flow.page.links) (hmarks : flow.MarksWord)
    (hplaces : Places flow.page.lines (.strict Link) flow.current.length flow.page.links) :
    InOrder flow.moveWord.page.links := by
  obtain ⟨-, -, hlinks⟩ := moveWord_records flow
  rw [hlinks]
  apply h.relocate hmarks.links
  · intro r hr
    rcases hplaces.line_lt_or hr with hlt | ⟨hnext, -⟩
    · exact hlt.le
    · exact hnext.le
  · exact relocates_link _ _

/-- The links are still in order after the last word was fitted. -/
theorem inOrder_fitWord (h : InOrder flow.page.links) (hmarks : flow.MarksWord)
    (hplaces : Places flow.page.lines (.strict Link) flow.current.length flow.page.links) :
    InOrder (flow.fitWord settings).page.links := by
  rw [fitWord_eq]
  split
  · exact h
  · exact inOrder_moveWord h hmarks hplaces

/-- Where room is made for a word, no link is touched. -/
theorem ready_links (settings : Settings) (flow : Flow) (word : Text) :
    ((flow.unmarked.beginLine settings).makeRoom settings word).page.links = flow.page.links := by
  unfold beginLine makeRoom
  dsimp only
  split_ifs <;> rfl

/-- **A word** keeps the links in order, wherever it is put. -/
theorem Sound.inOrder_addWord (hs : Sound settings flow) (h : InOrder flow.page.links)
    (hne : word ≠ []) (glue : Bool) : InOrder (flow.addWord settings word glue).page.links := by
  have hne' : flow.pendingMark ++ word ≠ [] := List.append_ne_nil_of_right_ne_nil _ hne
  by_cases hglue : (glue && flow.hasWords) = true
  · obtain ⟨rfl, hw⟩ := Bool.and_eq_true_iff.1 hglue
    have hunmarked : flow.unmarked.Bounded True := ⟨hs.bounds.spans, hs.bounds.links,
      hs.bounds.images⟩
    have hword : flow.unmarked.MarksWord :=
      ⟨(hs.marks hw).start_le, (hs.marks hw).spans, (hs.marks hw).links⟩
    have hplace := lengthens_place flow.unmarked hne'
    rw [addWord_glued hw]
    exact inOrder_fitWord (inOrder_place h hunmarked.links _) (hplace.marksWord hword)
      (hunmarked.lengthen hplace).links
  · obtain ⟨hroom, -⟩ := hs.bounds.ready hs.begun (flow.pendingMark ++ word)
    have hlinks : InOrder ((flow.unmarked.beginLine settings).makeRoom settings
        (flow.pendingMark ++ word)).startWord.page.links := by
      show InOrder ((flow.unmarked.beginLine settings).makeRoom settings _).page.links
      rw [ready_links]
      exact h
    rw [addWord_fresh (by simpa using hglue)]
    exact inOrder_place hlinks hroom.links _

/-- Fitting the last word leaves the images as they are. -/
theorem fitWord_images (flow : Flow) :
    (flow.fitWord settings).page.images = flow.page.images := by
  rw [fitWord_eq]
  split <;> rfl

/-- Words are no images. -/
theorem addWord_images (flow : Flow) (word : Text) (glue : Bool) :
    (flow.addWord settings word glue).page.images = flow.page.images := by
  unfold addWord beginLine makeRoom fitWord
  dsimp only
  split_ifs <;> rfl

/-! ## (3) States -/

/-- Whether the records of a state come in order, and all headings stand on the line where the last
one was begun or before. -/
structure Ordered (flow : Flow) : Prop where
  page : flow.page.InOrder
  headingLine : flow.headingLine ≤ flow.lineIndex
  heading_le : ∀ heading ∈ flow.page.headings, heading.line ≤ flow.headingLine

/-- The page grows, and no heading, image or link is recorded. -/
theorem Ordered.keep (h : a.Ordered) (hlines : a.lineIndex ≤ b.lineIndex) (hsame : SameHeadings a b)
    (himages : b.page.images = a.page.images) (hlinks : InOrder b.page.links) : b.Ordered := by
  refine ⟨⟨?_, ?_, hlinks⟩, ?_, ?_⟩
  · rw [hsame.headings]
    exact h.page.headings
  · rw [himages]
    exact h.page.images
  · rw [hsame.headingLine]
    exact h.headingLine.trans hlines
  · rw [hsame.headings, hsame.headingLine]
    exact h.heading_le

/-- **A heading** is recorded on the line where the last one was begun, which no other is behind. -/
theorem Ordered.heading (h : flow.Ordered) (level : Int) (text : Text) :
    Ordered { flow with page := { flow.page with
      headings := flow.page.headings ++ [⟨level, text, flow.headingLine⟩] } } := by
  refine ⟨⟨?_, h.page.images, h.page.links⟩, h.headingLine, ?_⟩
  · apply List.pairwise_append.2
    refine ⟨h.page.headings, List.pairwise_singleton _ _, ?_⟩
    intro earlier hearlier new hnew
    rw [List.mem_singleton.1 hnew]
    exact h.heading_le earlier hearlier
  · intro heading hheading
    rcases List.mem_append.1 hheading with hold | hnew
    · exact h.heading_le heading hold
    · rw [List.mem_singleton.1 hnew]

/-- **An image** is recorded together with its line, which is behind all others. -/
theorem Ordered.atImage (h : flow.Ordered) (hs : Sound settings flow) (source alt : Text) :
    (flow.atImage settings source alt).Ordered := by
  have hlines : (flow.atImage settings source alt).lineIndex = flow.lineIndex + 1 :=
    List.length_append
  refine ⟨⟨h.page.headings, ?_, h.page.links⟩, ?_, h.heading_le⟩
  · apply List.pairwise_append.2
    refine ⟨h.page.images, List.pairwise_singleton _ _, ?_⟩
    intro earlier hearlier new hnew
    rw [List.mem_singleton.1 hnew]
    rcases hs.bounds.images.line_lt_or hearlier with hlt | ⟨-, hin⟩
    · exact hlt
    · exact (not_within_zero hin).elim
  · rw [hlines]
    exact h.headingLine.trans (Nat.le_succ _)

/-- **Changes** keep the records in order. -/
theorem Ordered.change (h : a.Ordered) (hs : Sound settings a) (hc : Change settings a b) :
    b.Ordered := by
  have hlines : a.lineIndex ≤ b.lineIndex := hc.grows.lines.length_le
  cases hc with
  | quiet => exact ⟨h.page, h.headingLine, h.heading_le⟩
  | anchor attributes =>
    obtain ⟨anchors, hanchors⟩ := exists_recordAnchor a attributes
    rw [hanchors]
    exact ⟨⟨h.page.headings, h.page.images, h.page.links⟩, h.headingLine, h.heading_le⟩
  | heading level text => exact h.heading level text
  | headingLine =>
    -- The heading that is opened starts on the line that is being filled, so no heading is behind
    -- it.
    refine ⟨h.page, Nat.le_refl _, fun heading hheading => ?_⟩
    exact (h.heading_le heading hheading).trans (Int.ofNat_le.2 h.headingLine)
  | pendingMark => exact ⟨h.page, h.headingLine, h.heading_le⟩
  | commit hne => exact h.keep hlines ⟨rfl, rfl, rfl⟩ rfl h.page.links
  | blank hnil hl => exact h.keep hlines ⟨rfl, rfl, rfl⟩ rfl h.page.links
  | reset => exact ⟨h.page, h.headingLine, h.heading_le⟩
  | block => exact ⟨h.page, h.headingLine, h.heading_le⟩
  | leavePre => exact ⟨h.page, h.headingLine, h.heading_le⟩
  | item hnil =>
    obtain ⟨spans, heq⟩ := exists_atItem settings a
    rw [heq]
    exact ⟨h.page, h.headingLine, h.heading_le⟩
  | word hpre word hne hletters glue =>
    -- The links of the last word move with it, and they are the last ones.
    exact h.keep hlines ((leadsOnlyTo_addWord a word glue).same_all .headings)
      (addWord_images a word glue) (hs.inOrder_addWord h.page.links hne glue)
  | codeEnd hw =>
    have hend := lengthens_atCodeEnd a hw
    have hsame : SameHeadings a a.atCodeEnd := ⟨rfl, rfl, rfl⟩
    have hfit : SameHeadings a.atCodeEnd (a.atCodeEnd.fitWord settings) :=
      (leadsOnlyTo_fitWord settings _).same_all .headings
    refine h.keep hlines (hsame.trans hfit) (fitWord_images a.atCodeEnd) ?_
    -- The mark belongs to the last word, and moves with it like the rest of the word.
    have hlinks : InOrder a.atCodeEnd.page.links := h.page.links
    exact inOrder_fitWord hlinks (hend.marksWord (hs.marks hw))
      (hs.bounds.toBounded.lengthen hend).links
  | piece hpre piece hne =>
    rw [addPiece_of_ne_nil hne]
    exact ⟨h.page, h.headingLine, h.heading_le⟩
  | commitPre hpre =>
    have hpage : (a.commitPre settings).page.images = a.page.images ∧
        (a.commitPre settings).page.links = a.page.links := by
      unfold commitPre
      dsimp only
      split_ifs <;> exact ⟨rfl, rfl⟩
    exact h.keep hlines ((leadsOnlyTo_commitPre a).same_all .headings) hpage.1
      (hpage.2 ▸ h.page.links)
  | image hnil source alt => exact h.atImage hs source alt
  | rule hnil width hw => exact h.keep hlines ⟨rfl, rfl, rfl⟩ rfl h.page.links
  | tableLine hnil line => exact h.keep hlines ⟨rfl, rfl, rfl⟩ rfl h.page.links

/-- **The records of a layout** come in the order of its lines. -/
theorem run_inOrder (settings : Settings) (tokens : List Token) :
    (run settings tokens).page.InOrder := by
  have hempty : Ordered {} :=
    ⟨⟨List.Pairwise.nil, List.Pairwise.nil, List.Pairwise.nil⟩, Nat.le_refl _,
      fun heading hheading => absurd hheading List.not_mem_nil⟩
  obtain ⟨-, hflushed⟩ := flush_invariant settings hempty
    (fun hs hc h => h.change hs hc) tokens
  -- Completing the page removes blank lines and moves anchors only.
  exact ⟨hflushed.page.headings, hflushed.page.images, hflushed.page.links⟩

end Flow

end ChapterLayout
