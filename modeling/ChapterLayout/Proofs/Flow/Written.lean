import ChapterLayout.Proofs.Flow.Begun
import ChapterLayout.Proofs.Flow.SameText
import ChapterLayout.Proofs.Text.Letters

/-! # The text that is written so far

Where a line is broken, and whether a word moves to the next line, changes the gap before the word
and nothing else. `Flow.written` is the text of a state, and gaps are counted as one space each:

* **`Flow.Ready`** — what a state needs for that: its lines start with a gap, and a word that can
  move has a space before it;
* **`Ready.written_fitWord`** — fitting a word leaves the text alone;
* **`Ready.addWord`** — a state that is ready still is after a word;
* **`Ready.written_addWord_fresh`**, **`Ready.written_addWord_glued`** — the word is added to the
  text behind a gap, or directly. -/

namespace ChapterLayout

variable {p : Char → Bool}

/-! ## (1) Indentations are gaps -/

/-- Whether the lines of a context start with a gap: bars of quotations count as gaps, or no
quotation is open. Tables, which are as wide as the page, are not open either. -/
structure BlockContext.Plain (p : Char → Bool) (context : BlockContext) : Prop where
  quoteDepth : p '│' = true ∨ context.quoteDepth = 0
  inTable : context.table.inTable = false

/-- Spaces are of any class of characters that holds the space. -/
theorem Text.breaks_spaces (hspace : p ' ' = true) (count : Int) :
    ∀ c ∈ spaces count, p c = true := by
  intro c hc
  rwa [List.eq_of_mem_replicate hc]

/-- **The indentation is a gap.** -/
theorem BlockContext.Plain.indent {context : BlockContext} (h : context.Plain p)
    (hspace : p ' ' = true) (typography : Typography) :
    ∀ c ∈ context.indent typography, p c = true := by
  intro c hc
  rw [BlockContext.indent, List.mem_append, List.mem_append] at hc
  rcases hc with (hc | hc) | hc
  · split at hc
    · rename_i hquote
      rcases List.mem_append.1 hc with hc | hc
      · obtain ⟨bar, hbar, hc⟩ := List.mem_flatten.1 hc
        rw [List.eq_of_mem_replicate hbar] at hc
        -- In an open quotation bars count as gaps.
        have hp : p '│' = true := h.quoteDepth.resolve_right (Nat.ne_of_gt hquote)
        simp only [quoteBar, List.mem_cons, List.not_mem_nil, or_false] at hc
        rcases hc with rfl | rfl
        · exact hp
        · exact hspace
      · exact Text.breaks_spaces hspace _ c hc
    · simp at hc
  · exact Text.breaks_spaces hspace _ c hc
  · split at hc
    · exact Text.breaks_spaces hspace _ c hc
    · simp at hc

namespace Flow

variable {settings : Settings} {flow : Flow} {word : Text} {glue : Bool}

/-! ## (2) States whose lines can be broken -/

/-- The text of a state: its lines, and the line that is being filled. -/
def written (flow : Flow) : Text := Text.ended flow.page.lines ++ flow.current

/-- Whether lines can be broken without changing the text: they start with a gap, and a word that
can move has a space before it. -/
structure Ready (p : Char → Bool) (settings : Settings) (flow : Flow) : Prop where
  begun : flow.Begun settings
  plain : flow.context.Plain p
  continuation : ∀ c ∈ flow.continuation, p c = true
  apart : flow.hasWords = true → flow.wordMovable = true →
    (flow.current.take flow.wordStart).getLast? = some ' '

/-- A state without a word on its line. -/
theorem Ready.of_bare (hbegun : flow.Begun settings) (hplain : flow.context.Plain p)
    (hcontinuation : ∀ c ∈ flow.continuation, p c = true) (hw : flow.hasWords = false) :
    flow.Ready p settings :=
  ⟨hbegun, hplain, hcontinuation, fun hw' => absurd hw' (by simp [hw])⟩

/-- What a word is put behind ends where the word started. -/
theorem Ready.apart_append (h : flow.Ready p settings) (hw : flow.hasWords = true)
    (hmovable : flow.wordMovable = true) (s : Text) :
    ((flow.current ++ s).take flow.wordStart).getLast? = some ' ' := by
  rw [List.take_append_of_le_length (Nat.le_of_lt (h.begun.word hw).2.wordStart_lt)]
  exact h.apart hw hmovable

/-! ## (3) The text of a word that is placed or moved -/

/-- A word that is placed is written behind what was written before. -/
theorem written_place (flow : Flow) (word : Text) :
    (flow.place word).written = flow.written ++ word := by
  rw [written, written, List.append_assoc]
  rfl

section Space

variable (hspace : p ' ' = true) (hbreak : p '\n' = true)
include hspace hbreak

/-- A line break and the start of the next line are a gap. -/
theorem collapseBy_break (h : flow.Ready p settings) (s t : Text) :
    Text.collapseBy p (s ++ ('\n' :: (flow.continuation ++ t))) =
      Text.collapseBy p (s ++ (' ' :: t)) := by
  rw [← List.cons_append]
  exact Text.collapseBy_gap hspace s (List.cons_ne_nil _ _)
    (List.forall_mem_cons.2 ⟨hbreak, h.continuation⟩) t

/-- **Making room for a word** behind another one adds a gap to the text. -/
theorem Ready.written_makeRoom (h : flow.Ready p settings) (hw : flow.hasWords = true)
    (word : Text) : Text.collapseBy p (flow.makeRoom settings word).written =
      Text.collapseBy p (flow.written ++ [' ']) := by
  rcases makeRoom_cases settings flow word with ⟨-, hroom⟩ | hroom
  · have hwritten : (flow.makeRoom settings word).written =
        flow.written ++ ('\n' :: (flow.continuation ++ [])) := by
      rw [hroom]
      show Text.ended (flow.page.lines ++ [flow.current]) ++ flow.continuation = _
      rw [Text.ended_concat, written]
      simp
    rw [hwritten, collapseBy_break hspace hbreak h]
  · obtain ⟨c, hc, hblank⟩ := (h.begun.word hw).2.getLast
    rw [hroom, separator_of_letter hc hblank, written, written, List.append_assoc]

/-- **A word that moves** leaves the text as it is. -/
theorem Ready.written_moveWord (h : flow.Ready p settings) (hw : flow.hasWords = true)
    (hmovable : flow.wordMovable = true) :
    Text.collapseBy p flow.moveWord.written = Text.collapseBy p flow.written := by
  -- The spaces before the word are left out, and a line break comes in their place.
  obtain ⟨blanks, htrim, hblanks⟩ :=
    Text.exists_trimRight_append (flow.current.take flow.wordStart)
  have hne : blanks ≠ [] := by
    rintro rfl
    rw [List.append_nil] at htrim
    refine Text.getLast?_trimRight (flow.current.take flow.wordStart) ?_
    rw [← htrim]
    exact h.apart hw hmovable
  have hgap : ∀ c ∈ blanks, p c = true := by
    intro c hc
    obtain rfl : c = ' ' := by simpa [Text.isSpace] using hblanks c hc
    exact hspace
  have hold : flow.written = Text.ended flow.page.lines ++
      Text.trimRight Text.isSpace (flow.current.take flow.wordStart) ++
        (blanks ++ flow.current.drop flow.wordStart) := by
    rw [written, List.append_assoc, ← List.append_assoc (Text.trimRight _ _), ← htrim,
      List.take_append_drop]
  have hnew : flow.moveWord.written = Text.ended flow.page.lines ++
      Text.trimRight Text.isSpace (flow.current.take flow.wordStart) ++
        ('\n' :: (flow.continuation ++ flow.current.drop flow.wordStart)) := by
    show Text.ended (flow.page.lines ++ [Text.trimRight Text.isSpace _]) ++
      (flow.continuation ++ flow.current.drop flow.wordStart) = _
    rw [Text.ended_concat]
    simp
  rw [hold, hnew, collapseBy_break hspace hbreak h, Text.collapseBy_gap hspace _ hne hgap]

/-- **Fitting a word** leaves the text as it is. -/
theorem Ready.written_fitWord (h : flow.Ready p settings) (hw : flow.hasWords = true) :
    Text.collapseBy p (flow.fitWord settings).written = Text.collapseBy p flow.written := by
  cases hmovable : flow.wordMovable with
  | false => rw [fitWord_alone hmovable]
  | true =>
    rw [fitWord_eq]
    split
    · rfl
    · exact h.written_moveWord hspace hbreak hw hmovable

end Space

/-! ## (4) Words keep a state ready -/

/-- A word that moved cannot move again, and its line starts like every other. -/
theorem Ready.fitWord (h : flow.Ready p settings)
    (hbegun : (flow.fitWord settings).Begun settings) :
    (flow.fitWord settings).Ready p settings := by
  rw [fitWord_eq] at hbegun ⊢
  split
  · exact h
  · rename_i hfit
    rw [if_neg hfit] at hbegun
    exact ⟨hbegun, h.plain, h.continuation, fun _ hmovable => absurd hmovable Bool.false_ne_true⟩

/-- What is put behind the last word leaves the gap before the word alone. -/
theorem Ready.place (h : flow.Ready p settings) (hw : flow.hasWords = true)
    (hne : word ≠ []) (hword : ∀ c ∈ word, Text.isFlowBlank c = false) :
    (flow.place word).Ready p settings where
  begun := by
    have hplaced : (flow.place word).HoldsWord :=
      holdsWord_place (Nat.le_of_lt (h.begun.word hw).2.wordStart_lt) hne hword
    exact ⟨h.begun.pendingMark, fun _ => ⟨(h.begun.word hw).1, hplaced⟩,
      fun hw' => absurd hw' (by simp [hplaced.hasWords])⟩
  plain := h.plain
  continuation := h.continuation
  apart _ hmovable := h.apart_append hw hmovable word

/-- The start of the next line is a gap, also when a line was begun. -/
theorem Ready.continuation_beginLine (hspace : p ' ' = true) (h : flow.Ready p settings) :
    ∀ c ∈ (flow.beginLine settings).continuation, p c = true := by
  unfold beginLine
  split
  · exact h.plain.indent hspace _
  · exact h.continuation

/-- Making room for a word keeps the start of the lines that it wraps to. -/
@[simp] theorem makeRoom_continuation (flow : Flow) (word : Text) :
    (flow.makeRoom settings word).continuation = flow.continuation := by
  unfold makeRoom
  dsimp only
  split <;> rfl

/-- A line that is begun anew holds no word. -/
theorem holdsWord_beginLine (hold : flow.hasWords = true → flow.HoldsWord)
    (hw : (flow.beginLine settings).hasWords = true) : (flow.beginLine settings).HoldsWord := by
  have hw' : flow.hasWords = true := by
    unfold beginLine at hw
    split at hw <;> exact hw
  rw [beginLine_of_hasWords hw']
  exact hold hw'

/-- A fresh word has a space before it if it stands behind another one. -/
theorem getLast?_makeRoom (hold : flow.hasWords = true → flow.HoldsWord)
    (hw : (flow.makeRoom settings word).hasWords = true) :
    (flow.makeRoom settings word).current.getLast? = some ' ' := by
  rcases makeRoom_cases settings flow word with ⟨-, hroom⟩ | hroom
  · rw [hroom] at hw
    exact absurd hw Bool.false_ne_true
  · rw [hroom] at hw ⊢
    obtain ⟨c, hc, hblank⟩ := (hold hw).getLast
    show (flow.current ++ flow.separator).getLast? = some ' '
    rw [separator_of_letter hc hblank, List.getLast?_concat]

/-- The state whose mark is used up. -/
theorem Ready.unmarked (h : flow.Ready p settings) : flow.unmarked.Ready p settings :=
  ⟨⟨Or.inl rfl, h.begun.word, h.begun.bare⟩, h.plain, h.continuation, h.apart⟩

/-- **Words keep a state ready.** -/
theorem Ready.addWord (hspace : p ' ' = true) (h : flow.Ready p settings)
    (hpre : flow.context.inPre = false) (hne : word ≠ [])
    (hword : ∀ c ∈ word, Text.isFlowBlank c = false) (glue : Bool) :
    (flow.addWord settings word glue).Ready p settings := by
  have hbegun : (flow.addWord settings word glue).Begun settings :=
    h.begun.change (.word flow hpre word hne hword glue)
  have hletters := mark_isLetter h.begun.pendingMark hword
  by_cases hglue : (glue && flow.hasWords) = true
  · obtain ⟨rfl, hw⟩ := Bool.and_eq_true_iff.1 hglue
    rw [addWord_glued hw] at hbegun ⊢
    exact (h.unmarked.place hw (by simp [hne]) hletters).fitWord hbegun
  · have hplain : (flow.addWord settings word glue).context.Plain p := by
      rw [addWord_context]
      exact h.plain
    rw [addWord_fresh (by simpa using hglue)] at hbegun hplain ⊢
    refine ⟨hbegun, hplain, ?_, fun _ hmovable => ?_⟩
    · show ∀ c ∈ (makeRoom _ settings _).continuation, p c = true
      rw [makeRoom_continuation]
      exact h.unmarked.continuation_beginLine hspace
    · -- The word can move only if it stands behind another one.
      show (((makeRoom _ settings _).current ++ _).take
        (makeRoom _ settings _).current.length).getLast? = some ' '
      rw [List.take_left]
      exact getLast?_makeRoom (holdsWord_beginLine fun hw => (h.begun.word hw).2) hmovable

/-! ## (5) The text of a word -/

section Space

variable (hspace : p ' ' = true) (hbreak : p '\n' = true)
include hspace hbreak

/-- **A word that stands apart** from the word before it. -/
theorem Ready.written_addWord_fresh (h : flow.Ready p settings) (hw : flow.hasWords = true) :
    Text.collapseBy p (flow.addWord settings word).written =
      Text.collapseBy p (flow.written ++ [' '] ++ (flow.pendingMark ++ word)) := by
  have hbegin : flow.unmarked.beginLine settings = flow.unmarked := beginLine_of_hasWords hw
  rw [addWord_fresh rfl, written_place, hbegin]
  exact Text.collapseBy_append_congr hspace
    (h.unmarked.written_makeRoom hspace hbreak hw _) rfl

/-- **A word that continues** the last one. -/
theorem Ready.written_addWord_glued (h : flow.Ready p settings) (hw : flow.hasWords = true)
    (hne : word ≠ []) (hword : ∀ c ∈ word, Text.isFlowBlank c = false) :
    Text.collapseBy p (flow.addWord settings word true).written =
      Text.collapseBy p (flow.written ++ (flow.pendingMark ++ word)) := by
  have hready := h.unmarked.place hw (by simp [hne] : flow.pendingMark ++ word ≠ [])
    (mark_isLetter h.begun.pendingMark hword)
  rw [addWord_glued hw, hready.written_fitWord hspace hbreak rfl, written_place]
  rfl

end Space

/-- **The first word** of a line is put behind the start of the line. -/
theorem addWord_first (hw : flow.hasWords = false) (settings : Settings) (word : Text)
    (glue : Bool) :
    (flow.addWord settings word glue).page.lines = flow.page.lines ∧
      (flow.addWord settings word glue).current =
        (flow.beginLine settings).current ++ (flow.beginLine settings).separator ++
          (flow.pendingMark ++ word) := by
  have hbegin : (flow.unmarked.beginLine settings) = (flow.beginLine settings).unmarked := by
    unfold beginLine unmarked
    dsimp only
    split <;> rfl
  have hstart : (flow.beginLine settings).unmarked.hasWords = false := by
    unfold beginLine unmarked
    split <;> exact hw
  have hlines : (flow.beginLine settings).page.lines = flow.page.lines := by
    unfold beginLine
    split <;> rfl
  rw [addWord_fresh (by simp [hw]), hbegin, makeRoom_stay (Or.inr hstart)]
  exact ⟨hlines, rfl⟩

end Flow

end ChapterLayout
