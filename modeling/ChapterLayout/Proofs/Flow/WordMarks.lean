import ChapterLayout.Proofs.Flow.Marks
import ChapterLayout.Proofs.Flow.Plain

/-! # The records behind the marks

As long as the current line holds a word, the two marks of a state point into its spans and links,
and what stands behind them are records of the last word. So a word that moves takes its own records
along and no others:

* **`Flow.Lengthens`** — whether a step puts a piece of the last word at the end of the line;
* **`Flow.MarksWord`** — whether the marks point at the records of the last word;
* **`Lengthens.marksWord`**, **`MarksWord.moveWord`** — pieces of a word keep that, and so does its
  move to the next line;
* **`marksWord_feedAll`** — it is so in every state that tokens lead to. -/

namespace ChapterLayout

/-- Whether a mark points into a list of records, and those behind it stand on a line and start at a
column of it or later. -/
structure MarksTail {ρ : Type} [Positioned ρ] (records : List ρ) (mark : Nat) (line col : Int) :
    Prop where
  mark_le : mark ≤ records.length
  behind : StartFrom (records.drop mark) line col

section Records

variable {ρ : Type} [Positioned ρ] {records emitted : List ρ} {mark : Nat} {line col : Int}

/-- The mark behind all records. -/
theorem marksTail_length (records : List ρ) (line col : Int) :
    MarksTail records records.length line col := by
  refine ⟨Nat.le_refl _, ?_⟩
  rw [List.drop_length]
  exact fun r hr => absurd hr List.not_mem_nil

/-- More records behind the mark. -/
theorem MarksTail.append (h : MarksTail records mark line col)
    (hemitted : StartFrom emitted line col) : MarksTail (records ++ emitted) mark line col := by
  refine ⟨h.mark_le.trans (List.length_append ▸ Nat.le_add_right _ _), ?_⟩
  rw [List.drop_append_of_le_length h.mark_le]
  exact h.behind.append hemitted

/-- The records that move along with a word. -/
theorem MarksTail.relocate (h : MarksTail records mark line col) {relocated : ρ → ρ}
    {line' shift : Int} (hmove : Relocates relocated line' shift) (before : List ρ) :
    MarksTail (before ++ (records.drop mark).map relocated) before.length line' (col + shift) := by
  refine ⟨List.length_append ▸ Nat.le_add_right _ _, ?_⟩
  rw [List.drop_left]
  intro r hr
  obtain ⟨r, hr', rfl⟩ := List.mem_map.1 hr
  obtain ⟨hline, hstart, -⟩ := hmove r
  have hfrom := (h.behind r hr').2
  exact ⟨hline, by omega⟩

end Records

namespace Flow

variable {settings : Settings} {flow a b : Flow} {word : Text}

/-! ## (1) Pieces of a word -/

/-- Whether records are added that stand over what is new on the line. -/
def AddsOver {ρ : Type} [Positioned ρ] (a b : Flow) (old new : List ρ) : Prop :=
  ∃ added, new = old ++ added ∧ ∀ r ∈ added, Positioned.line r = a.lineIndex ∧
    (a.current.length : Int) ≤ Positioned.startCol r ∧
    Positioned.startCol r < Positioned.endCol r ∧ Positioned.endCol r ≤ b.current.length

/-- Whether a piece of the last word is put at the end of the line, with the records over it. -/
structure Lengthens (a b : Flow) : Prop where
  page : b.page = { a.page with links := b.page.links }
  context : b.context = a.context
  current : a.current <+: b.current
  spans : AddsOver a b a.spans b.spans
  links : AddsOver a b a.page.links b.page.links
  hasWords : b.hasWords = true
  wordStart : b.wordStart = a.wordStart
  spanMark : b.spanMark = a.spanMark
  linkMark : b.linkMark = a.linkMark
  wordMovable : b.wordMovable = a.wordMovable

/-- A piece of the last word is put on the line that is being filled. -/
theorem Lengthens.lineIndex (h : Lengthens a b) : b.lineIndex = a.lineIndex := by
  rw [Flow.lineIndex, h.page, Flow.lineIndex]

/-- A word is placed. -/
theorem lengthens_place (flow : Flow) (hne : word ≠ []) : Lengthens flow (flow.place word) := by
  have hpos : 0 < word.length := List.length_pos_iff.2 hne
  have hlength : (flow.place word).current.length = flow.current.length + word.length :=
    List.length_append
  obtain ⟨hspans, hlinks⟩ := emitWord_columns flow.styles.active flow.lineIndex flow.current.length
    (flow.place word).current.length
  refine ⟨rfl, rfl, List.prefix_append _ _, ⟨_, rfl, fun r hr => ?_⟩, ⟨_, rfl, fun r hr => ?_⟩, rfl,
    rfl, rfl, rfl, rfl⟩
  · obtain ⟨hline, hstart, hend⟩ := hspans r hr
    exact ⟨hline, by omega, by omega, by omega⟩
  · obtain ⟨hline, hstart, hend⟩ := hlinks r hr
    exact ⟨hline, by omega, by omega, by omega⟩

/-- Inline code ends with a mark. -/
theorem lengthens_atCodeEnd (flow : Flow) (hw : flow.hasWords = true) :
    Lengthens flow flow.atCodeEnd := by
  have hlength : flow.atCodeEnd.current.length = flow.current.length + 1 := List.length_append
  refine ⟨rfl, rfl, List.prefix_append _ _, ⟨_, rfl, fun r hr => ?_⟩,
    ⟨[], (List.append_nil _).symm, fun r hr => absurd hr List.not_mem_nil⟩, hw, rfl, rfl, rfl, rfl⟩
  obtain rfl := List.mem_singleton.1 hr
  refine ⟨rfl, Int.le_refl _, Int.lt_succ _, ?_⟩
  show (flow.current.length : Int) + 1 ≤ _
  omega

/-! ## (2) The records of the last word -/

/-- Whether the last word and its records start at the marks. -/
structure MarksWord (flow : Flow) : Prop where
  start_le : flow.wordStart ≤ flow.current.length
  spans : MarksTail flow.spans flow.spanMark flow.lineIndex flow.wordStart
  links : MarksTail flow.page.links flow.linkMark flow.lineIndex flow.wordStart

/-- A word that starts sets the marks behind all records. -/
theorem marksWord_startWord (flow : Flow) : flow.startWord.MarksWord :=
  ⟨Nat.le_refl _, marksTail_length _ _ _, marksTail_length _ _ _⟩

/-- **The records of a piece** belong to the last word. -/
theorem Lengthens.marksWord (h : Lengthens a b) (ha : a.MarksWord) : b.MarksWord := by
  obtain ⟨hstart, hspans, hlinks⟩ := ha
  obtain ⟨spans, hnew, hspansOver⟩ := h.spans
  obtain ⟨links, hnew', hlinksOver⟩ := h.links
  refine ⟨?_, ?_, ?_⟩
  · rw [h.wordStart]
    exact hstart.trans h.current.length_le
  · rw [h.lineIndex, h.wordStart, h.spanMark, hnew]
    refine hspans.append fun r hr => ?_
    obtain ⟨hline, hfrom, -⟩ := hspansOver r hr
    exact ⟨hline, by omega⟩
  · rw [h.lineIndex, h.wordStart, h.linkMark, hnew']
    refine hlinks.append fun r hr => ?_
    obtain ⟨hline, hfrom, -⟩ := hlinksOver r hr
    exact ⟨hline, by omega⟩

/-! ## (3) The move of a word -/

/-- The line before a word that moves. -/
def brokenLine (flow : Flow) : Line :=
  Text.trimRight Text.isSpace (flow.current.take flow.wordStart)

/-- Where a word moves, and with it its records. -/
theorem moveWord_records (flow : Flow) :
    (flow.moveWord.lineIndex : Int) = flow.lineIndex + 1 ∧
      flow.moveWord.spans = flow.broken.spans ++ (flow.spans.drop flow.spanMark).map
        (relocate (fun r line => { r with line }) (flow.lineIndex + 1)
          ((flow.continuation.length : Int) - flow.wordStart)) ∧
      flow.moveWord.page.links = flow.page.links.take flow.linkMark ++
        (flow.page.links.drop flow.linkMark).map
          (relocate (fun r line => { r with line }) (flow.lineIndex + 1)
            ((flow.continuation.length : Int) - flow.wordStart)) := by
  have hline : (flow.moveWord.lineIndex : Int) = flow.lineIndex + 1 := by
    show (((flow.page.lines ++ [flow.brokenLine]).length : Nat) : Int) = _
    rw [List.length_append]
    rfl
  refine ⟨hline, ?_, ?_⟩
  all_goals
    rw [← hline]
    rfl

/-- The spans of the line before it, one more of them if it is a title. -/
theorem exists_broken_spans (flow : Flow) : ∃ title : List Span,
    flow.broken.spans = flow.spans.take flow.spanMark ++ title ∧
      ∀ r ∈ title, r = ⟨flow.lineIndex, 0, flow.brokenLine.length, Group.title⟩ := by
  unfold broken commit
  dsimp only
  split
  · exact ⟨_, rfl, fun r hr => List.mem_singleton.1 hr⟩
  · exact ⟨[], (List.append_nil _).symm, fun r hr => absurd hr List.not_mem_nil⟩

/-- **A word that moves** takes its records along. -/
theorem MarksWord.moveWord (h : flow.MarksWord) : flow.moveWord.MarksWord := by
  have hcol : (flow.wordStart : Int) + ((flow.continuation.length : Int) - flow.wordStart) =
      flow.continuation.length := by omega
  obtain ⟨hline, hspans, hlinks⟩ := moveWord_records flow
  refine ⟨?_, ?_, ?_⟩
  · show flow.continuation.length ≤ (flow.continuation ++ flow.current.drop flow.wordStart).length
    rw [List.length_append]
    omega
  · have hmoved := h.spans.relocate (relocates_span (flow.lineIndex + 1)
      ((flow.continuation.length : Int) - flow.wordStart)) flow.broken.spans
    rw [hspans, hline]
    rwa [hcol] at hmoved
  · have hmoved := h.links.relocate (relocates_link (flow.lineIndex + 1)
      ((flow.continuation.length : Int) - flow.wordStart)) flow.broken.page.links
    rw [hlinks, hline]
    rwa [hcol] at hmoved

/-- The last word still starts at its marks after it was fitted. -/
theorem MarksWord.fitWord (h : flow.MarksWord) : (flow.fitWord settings).MarksWord := by
  rw [fitWord_eq]
  split
  · exact h
  · exact h.moveWord

/-- A word that is added starts at the marks, or is glued to one that does. -/
theorem marksWord_addWord (h : flow.hasWords = true → flow.MarksWord) (hne : word ≠ [])
    (glue : Bool) : (flow.addWord settings word glue).MarksWord := by
  have hne' : flow.pendingMark ++ word ≠ [] := List.append_ne_nil_of_right_ne_nil _ hne
  by_cases hglue : (glue && flow.hasWords) = true
  · obtain ⟨rfl, hw⟩ := Bool.and_eq_true_iff.1 hglue
    have hunmarked : flow.unmarked.MarksWord := ⟨(h hw).start_le, (h hw).spans, (h hw).links⟩
    rw [addWord_glued hw]
    exact ((lengthens_place _ hne').marksWord hunmarked).fitWord
  · rw [addWord_fresh (by simpa using hglue)]
    exact (lengthens_place _ hne').marksWord (marksWord_startWord _)

/-! ## (4) Changes -/

/-- **Changes** keep the marks, as long as the line holds a word. -/
theorem marksWord_change (hc : Change settings a b) (hbegun : a.Begun settings)
    (h : a.hasWords = true → a.MarksWord) : b.hasWords = true → b.MarksWord := by
  -- Only a line with words has a last word.
  have hempty : a.current = [] → a.hasWords = true → b.MarksWord := fun hnil hw =>
    absurd hw (by simp [hbegun.hasWords_eq_false hnil])
  cases hc with
  | quiet => exact fun hw => ⟨(h hw).start_le, (h hw).spans, (h hw).links⟩
  | anchor attributes =>
    obtain ⟨anchors, hanchors⟩ := exists_recordAnchor a attributes
    rw [hanchors]
    exact fun hw => ⟨(h hw).start_le, (h hw).spans, (h hw).links⟩
  | heading => exact fun hw => ⟨(h hw).start_le, (h hw).spans, (h hw).links⟩
  | headingLine => exact fun hw => ⟨(h hw).start_le, (h hw).spans, (h hw).links⟩
  | pendingMark => exact fun hw => ⟨(h hw).start_le, (h hw).spans, (h hw).links⟩
  | commit => exact fun hw => nomatch hw
  | blank hnil => exact hempty hnil
  | reset hnil => exact hempty hnil
  | block hnil => exact hempty hnil
  | leavePre => exact fun hw => ⟨(h hw).start_le, (h hw).spans, (h hw).links⟩
  | item hnil =>
    obtain ⟨spans, heq⟩ := exists_atItem settings a
    rw [heq]
    exact fun hw => nomatch hw
  | word hpre word hne hword glue => exact fun _ => marksWord_addWord h hne glue
  | codeEnd hw => exact fun _ => ((lengthens_atCodeEnd a hw).marksWord (h hw)).fitWord
  | piece hpre piece hne =>
    rw [addPiece_of_ne_nil hne]
    exact fun hw => absurd hw (by simp [hbegun.hasWords_of_inPre hpre])
  | commitPre =>
    obtain ⟨page, spans, heq, -⟩ := exists_commitPre_lines settings a
    rw [heq]
    exact fun hw => nomatch hw
  | image => exact fun hw => nomatch hw
  | rule => exact fun hw => nomatch hw
  | tableLine hnil => exact hempty hnil

/-- The last word of a line still starts at its marks when the state changes. -/
theorem marksWord_changes (hc : Changes settings a b) (hbegun : a.Begun settings)
    (h : a.hasWords = true → a.MarksWord) : b.hasWords = true → b.MarksWord := by
  induction hc with
  | refl => exact h
  | tail hab hbc ih => exact marksWord_change hbc (hbegun.changes hab) ih

/-- **The marks point at the last word** in every state that tokens lead to. -/
theorem marksWord_feedAll (settings : Settings) (tokens : List Token) :
    (feedAll {} settings tokens).hasWords = true → (feedAll {} settings tokens).MarksWord :=
  marksWord_changes (feedAll_changes {} tokens) (begun_of_empty (.inl rfl) rfl rfl)
    fun hw => nomatch hw

end Flow

end ChapterLayout
