import ChapterLayout.Proofs.Flow.Feed

/-! # What the line that is being filled looks like

Every state that tokens lead to is in one of three cases, `Flow.Begun`: the line is empty; it holds
a word, ends in a letter and is no preformatted text (`Flow.HoldsWord`); or it holds no word, and
then it is an open line of preformatted text or the indentation with a marker (`Flow.IsBare`).

* **`begun_feedAll`** — every state that tokens lead to is in one of these cases;
* **`IsBare.getLast`** — a line with a marker ends in a space, so that no space separates a word
  from it. -/

namespace ChapterLayout

/-! ## (1) Starts of lines -/

/-- Whether a text is empty or ends in a space, as the starts of lines do. -/
def Text.IsStart (s : Text) : Prop := s = [] ∨ s.getLast? = some ' '

/-- A start behind a start is a start. -/
theorem Text.IsStart.append {s t : Text} (hs : s.IsStart) (ht : t.IsStart) : (s ++ t).IsStart := by
  rcases ht with rfl | ht
  · rwa [List.append_nil]
  · right
    rw [List.getLast?_append, ht]
    rfl

/-- Spaces are the start of a line. -/
theorem Text.isStart_spaces (n : Nat) : Text.IsStart (List.replicate n ' ') := by
  cases n with
  | zero => exact Or.inl rfl
  | succ n =>
    right
    rw [List.replicate_succ', List.getLast?_append]
    rfl

/-- The indentation ends in a space if it is not empty. -/
theorem BlockContext.isStart_indent (context : BlockContext) (typography : Typography) :
    (context.indent typography).IsStart := by
  have hbars : ∀ n : Nat, Text.IsStart (List.replicate n quoteBar).flatten := by
    intro n
    cases n with
    | zero => exact Or.inl rfl
    | succ n =>
      right
      rw [List.replicate_succ', List.flatten_append, List.getLast?_append]
      rfl
  unfold indent
  refine Text.IsStart.append (Text.IsStart.append ?_ (Text.isStart_spaces _)) ?_
  · split
    · exact (hbars _).append (Text.isStart_spaces _)
    · exact Or.inl rfl
  · split
    · exact Text.isStart_spaces _
    · exact Or.inl rfl

/-- A context without quotations, lists and definitions has no indentation. -/
theorem BlockContext.indent_eq_nil {context : BlockContext} {typography : Typography}
    (hq : context.quoteDepth = 0) (hl : context.lists = []) (hd : context.inDescription = false) :
    context.indent typography = [] := by
  simp [indent, hq, hl, hd, Text.spaces]

/-- The markers of the items of open lists; outside lists the marker is empty. -/
inductive IsMarker : List ListLevel → Text → Prop
  | outside : IsMarker [] []
  | bullet (level : ListLevel) (outer : List ListLevel) :
      IsMarker (level :: outer) BlockContext.bullet
  | number (level : ListLevel) (outer : List ListLevel) (n : Nat) :
      IsMarker (level :: outer) (Text.ofNat n ++ ['.', ' '])

/-- A marker ends in a space if it is not empty. -/
theorem IsMarker.isStart {lists : List ListLevel} {marker : Text} (h : IsMarker lists marker) :
    marker.IsStart := by
  cases h with
  | outside => exact Or.inl rfl
  | bullet level outer => exact Or.inr rfl
  | number level outer n =>
    right
    rw [List.getLast?_append]
    rfl

/-- The marker of the next item is one, also of the lists in which the item is counted. -/
theorem BlockContext.isMarker_nextMarker (context : BlockContext) :
    IsMarker context.nextMarker.2.lists context.nextMarker.1 := by
  unfold nextMarker
  split
  · rename_i h
    rw [h]
    exact .outside
  · rename_i level outer h
    split
    · exact .number _ _ _
    · dsimp only
      rw [h]
      exact .bullet _ _

/-- Counting an item leaves the indentation alone. -/
theorem BlockContext.nextMarker_indent (context : BlockContext) (typography : Typography) :
    context.nextMarker.2.indent typography = context.indent typography := by
  unfold nextMarker
  split
  · rfl
  · rename_i level outer h
    split
    · simp [indent, h]
    · rfl

namespace Flow

variable {settings : Settings} {flow : Flow} {word : Text} {glue : Bool}

/-! ## (2) Lines that hold a word -/

/-- The line holds a word and ends in a letter. -/
def HoldsWord (flow : Flow) : Prop :=
  flow.hasWords = true ∧ flow.wordStart < flow.current.length ∧
    ∃ c, flow.current.getLast? = some c ∧ Text.isFlowBlank c = false

/-- A line that holds a word has words. -/
theorem HoldsWord.hasWords (h : flow.HoldsWord) : flow.hasWords = true := h.1

/-- The last word of a line that holds one starts before the end of the line. -/
theorem HoldsWord.wordStart_lt (h : flow.HoldsWord) : flow.wordStart < flow.current.length := h.2.1

/-- A line that holds a word ends in a letter. -/
theorem HoldsWord.getLast (h : flow.HoldsWord) :
    ∃ c, flow.current.getLast? = some c ∧ Text.isFlowBlank c = false := h.2.2

/-- A line that holds a word is not empty. -/
theorem HoldsWord.current_ne_nil (h : flow.HoldsWord) : flow.current ≠ [] := by
  intro hnil
  have := h.wordStart_lt
  simp [hnil] at this

/-- A line that ends in a letter still does after its last word moved. -/
theorem HoldsWord.moveWord (h : flow.HoldsWord) : flow.moveWord.HoldsWord := by
  have hlt := h.wordStart_lt
  refine ⟨rfl, ?_, ?_⟩
  · show flow.continuation.length <
      (flow.continuation ++ flow.current.drop flow.wordStart).length
    rw [List.length_append, List.length_drop]
    omega
  · obtain ⟨c, hc, hblank⟩ := h.getLast
    refine ⟨c, ?_, hblank⟩
    show (flow.continuation ++ flow.current.drop flow.wordStart).getLast? = some c
    rw [List.getLast?_append, List.getLast?_drop, if_neg (by omega), hc]
    rfl

/-- A line still holds a word after its last word was fitted. -/
theorem HoldsWord.fitWord (h : flow.HoldsWord) : (flow.fitWord settings).HoldsWord := by
  rw [fitWord_eq]
  split
  · exact h
  · exact h.moveWord

/-- A word that is put on a line stands at its end. -/
theorem holdsWord_place (hstart : flow.wordStart ≤ flow.current.length) (hne : word ≠ [])
    (hword : ∀ c ∈ word, Text.isFlowBlank c = false) : (flow.place word).HoldsWord := by
  have hpos : 0 < word.length := List.length_pos_iff.2 hne
  refine ⟨rfl, ?_, ?_⟩
  · show flow.wordStart < (flow.current ++ word).length
    rw [List.length_append]
    omega
  · refine ⟨word.getLast hne, ?_, hword _ (List.getLast_mem hne)⟩
    show (flow.current ++ word).getLast? = some (word.getLast hne)
    rw [List.getLast?_append, List.getLast?_eq_some_getLast hne]
    rfl

/-- A line with the mark that ends inline code ends in a letter. -/
theorem HoldsWord.atCodeEnd (h : flow.HoldsWord) : flow.atCodeEnd.HoldsWord := by
  refine ⟨h.hasWords, ?_, '\x60', List.getLast?_concat, rfl⟩
  show flow.wordStart < (flow.current ++ ['\x60']).length
  have := h.wordStart_lt
  rw [List.length_append]
  omega

/-- The mark that ends inline code is not a space. -/
theorem isSpace_codeMark : ∀ c ∈ ['\x60'], Text.isSpace c = false := by
  intro c hc
  rw [List.mem_singleton.1 hc]
  rfl

/-- A mark before a word is not a blank. -/
theorem mark_isLetter (hmark : flow.pendingMark = [] ∨ flow.pendingMark = ['\x60'])
    (hword : ∀ c ∈ word, Text.isFlowBlank c = false) :
    ∀ c ∈ flow.pendingMark ++ word, Text.isFlowBlank c = false := by
  intro c hc
  rcases List.mem_append.1 hc with hc | hc
  · rcases hmark with h | h
    · simp [h] at hc
    · rw [h, List.mem_singleton] at hc
      rw [hc]
      rfl
  · exact hword c hc

/-- The line holds a word after a word was laid out. -/
theorem holdsWord_addWord (hmark : flow.pendingMark = [] ∨ flow.pendingMark = ['\x60'])
    (hold : flow.hasWords = true → flow.HoldsWord) (hne : word ≠ [])
    (hword : ∀ c ∈ word, Text.isFlowBlank c = false) :
    (flow.addWord settings word glue).HoldsWord := by
  have hne' : flow.pendingMark ++ word ≠ [] := by simp [hne]
  have hletters := mark_isLetter hmark hword
  by_cases hglue : (glue && flow.hasWords) = true
  · -- The glued piece ends the line, and still does if its word moves.
    obtain ⟨rfl, hw⟩ := Bool.and_eq_true_iff.1 hglue
    rw [addWord_glued hw]
    have hplaced : (flow.unmarked.place (flow.pendingMark ++ word)).HoldsWord :=
      holdsWord_place (Nat.le_of_lt (hold hw).wordStart_lt) hne' hletters
    exact hplaced.fitWord
  · rw [addWord_fresh (by simpa using hglue)]
    exact holdsWord_place (Nat.le_refl _) hne' hletters

/-! ## (3) Lines that hold no word -/

/-- The line is the indentation with a marker, and wrapped lines continue behind the marker. -/
def IsBare (settings : Settings) (flow : Flow) : Prop :=
  ∃ marker, IsMarker flow.context.lists marker ∧
    flow.current = flow.indent settings ++ marker ∧
    flow.continuation = flow.indent settings ++ List.replicate (Text.width marker) ' '

/-- A line with a marker ends in a space. -/
theorem IsBare.getLast (h : flow.IsBare settings) (hne : flow.current ≠ []) :
    flow.current.getLast? = some ' ' := by
  obtain ⟨marker, hmarker, hcurrent, -⟩ := h
  have hstart : (flow.indent settings ++ marker).IsStart :=
    (BlockContext.isStart_indent _ _).append hmarker.isStart
  rw [← hcurrent] at hstart
  exact hstart.resolve_left hne

/-- The cases of the line that is being filled: it holds a word, it is a line of preformatted text,
it holds a marker only, or it is empty. -/
structure Begun (settings : Settings) (flow : Flow) : Prop where
  /-- The mark that starts inline code is the only one that can be pending. -/
  pendingMark : flow.pendingMark = [] ∨ flow.pendingMark = ['\x60']
  word : flow.hasWords = true → flow.context.inPre = false ∧ flow.HoldsWord
  bare : flow.hasWords = false → flow.current ≠ [] →
    (flow.context.inPre = true ∧ flow.preLineOpen = true) ∨ flow.IsBare settings

/-- An empty line holds no word. -/
theorem Begun.hasWords_eq_false (h : flow.Begun settings) (hnil : flow.current = []) :
    flow.hasWords = false := by
  by_contra hw
  exact (h.word (by simpa using hw)).2.current_ne_nil hnil

/-- The line holds no word in preformatted text. -/
theorem Begun.hasWords_of_inPre (h : flow.Begun settings) (hpre : flow.context.inPre = true) :
    flow.hasWords = false := by
  by_contra hw
  have := (h.word (by simpa using hw)).1
  simp [hpre] at this

/-- A line that is empty and holds no word. -/
theorem begun_of_empty (hmark : flow.pendingMark = [] ∨ flow.pendingMark = ['\x60'])
    (hw : flow.hasWords = false) (hnil : flow.current = []) : flow.Begun settings :=
  ⟨hmark, fun h => by simp [hw] at h, fun _ h => absurd hnil h⟩

/-- The start of an item. -/
theorem isBare_atItem (flow : Flow) : (flow.atItem settings).IsBare settings := by
  have hmarker := flow.context.isMarker_nextMarker
  have hindent := flow.context.nextMarker_indent settings.typography
  unfold atItem
  dsimp only
  split
  all_goals
    refine ⟨flow.context.nextMarker.1, hmarker, ?_, ?_⟩
    · exact congrArg (· ++ flow.context.nextMarker.1) hindent.symm
    · exact congrArg (· ++ _) hindent.symm

/-- **Changes keep the cases.** -/
theorem Begun.change {flow' : Flow} (hc : Change settings flow flow') (h : flow.Begun settings) :
    flow'.Begun settings := by
  cases hc with
  -- Bookkeeping does not look at the line.
  | quiet => exact ⟨h.pendingMark, h.word, h.bare⟩
  | anchor attributes =>
    obtain ⟨anchors, hanchors⟩ := exists_recordAnchor flow attributes
    rw [hanchors]
    exact ⟨h.pendingMark, h.word, h.bare⟩
  | heading => exact ⟨h.pendingMark, h.word, h.bare⟩
  | headingLine => exact ⟨h.pendingMark, h.word, h.bare⟩
  | pendingMark mark hmark => exact ⟨hmark, h.word, h.bare⟩
  -- After a line that is complete, and at the borders of blocks, no line is begun.
  | commit => exact begun_of_empty h.pendingMark rfl rfl
  | blank hnil => exact begun_of_empty h.pendingMark (h.hasWords_eq_false hnil) hnil
  | reset hnil => exact begun_of_empty h.pendingMark (h.hasWords_eq_false hnil) hnil
  | block hnil => exact begun_of_empty h.pendingMark (h.hasWords_eq_false hnil) hnil
  | leavePre hopen =>
    -- No line of preformatted text is open, so a line that is begun was begun before it.
    refine ⟨h.pendingMark, fun hw => ⟨rfl, (h.word hw).2⟩, fun hw hne => ?_⟩
    rcases h.bare hw hne with ⟨-, hopen'⟩ | hbare
    · exact absurd hopen' (by simp [hopen])
    · exact Or.inr hbare
  | item hnil =>
    have hw : (flow.atItem settings).hasWords = false := by
      unfold atItem
      dsimp only
      split <;> rfl
    have hmark : (flow.atItem settings).pendingMark = flow.pendingMark := by
      unfold atItem
      dsimp only
      split <;> rfl
    exact ⟨hmark ▸ h.pendingMark, fun hw' => by simp [hw] at hw',
      fun _ _ => Or.inr (isBare_atItem flow)⟩
  | word hpre word hne hword glue =>
    -- The mark that was pending stands before the word, and none is pending after it.
    have hmark : (flow.addWord settings word glue).pendingMark = [] := by
      unfold addWord beginLine makeRoom fitWord
      dsimp only
      split_ifs <;> rfl
    have hholds : (flow.addWord settings word glue).HoldsWord :=
      holdsWord_addWord h.pendingMark (fun hw => (h.word hw).2) hne hword
    refine ⟨Or.inl hmark, fun _ => ⟨?_, hholds⟩, fun hw => ?_⟩
    · rw [addWord_context]
      exact hpre
    · simp [hholds.hasWords] at hw
  | codeEnd hw =>
    obtain ⟨hpre, hold⟩ := h.word hw
    have hholds : (flow.atCodeEnd.fitWord settings).HoldsWord := hold.atCodeEnd.fitWord
    refine ⟨?_, fun _ => ⟨?_, hholds⟩, fun hw' => by simp [hholds.hasWords] at hw'⟩
    · rw [fitWord_eq]
      split <;> exact h.pendingMark
    · rw [fitWord_eq]
      split <;> exact hpre
  | piece hpre piece hne =>
    -- A piece goes behind the open line, or opens one behind the indentation.
    have hwords := h.hasWords_of_inPre hpre
    have hopen : flow.addPiece settings piece =
        { flow with
          current := (if flow.preLineOpen then flow.current else flow.indent settings) ++ piece
          preLineOpen := true } := by
      simp [addPiece, hne]
    rw [hopen]
    exact ⟨h.pendingMark, fun hw => by simp [hwords] at hw, fun _ _ => Or.inl ⟨hpre, rfl⟩⟩
  | commitPre hpre =>
    unfold commitPre
    dsimp only
    split_ifs <;> exact begun_of_empty h.pendingMark rfl rfl
  | image => exact begun_of_empty h.pendingMark rfl rfl
  | rule => exact begun_of_empty h.pendingMark rfl rfl
  | tableLine hnil => exact begun_of_empty h.pendingMark (h.hasWords_eq_false hnil) hnil

/-- Chains of changes keep the cases. -/
theorem Begun.changes {flow' : Flow} (h : flow.Begun settings)
    (hc : Changes settings flow flow') : flow'.Begun settings :=
  hc.preserves (fun hc h => h.change hc) h

/-- **Every state that tokens lead to is in one of the cases.** -/
theorem begun_feedAll (settings : Settings) (tokens : List Token) :
    (feedAll {} settings tokens).Begun settings :=
  feedAll_invariant (begun_of_empty (Or.inl rfl) rfl rfl) (fun hc h => h.change hc) tokens

end Flow

end ChapterLayout
