import ChapterLayout.Proofs.Flow.AppendOnly
import ChapterLayout.Proofs.Flow.Bounds
import ChapterLayout.Proofs.Flow.Fitting
import ChapterLayout.Proofs.Flow.Wrapping
import ChapterLayout.Proofs.Text.Words

/-! # The line on which a word ends up

A fresh word is put on the line that is being filled if it has room there, and on the next one
otherwise. It may still move to the next line afterwards, when a piece that is glued to it makes it
too wide, but it moves once at most:

* **`Flow.Settled`** — whether a line starts with a text that stays there;
* **`Settled.change`** — no change moves it;
* **`Flow.Unsettled`** — whether a word stands behind other ones and may still move;
* **`Flow.Tracks`** — where a fresh word is: on its line, or on the next one because it does not
  fit;
* **`settled_addWord`**, **`tracks_addWord`** — the first word of a line settles, and a fresh one
  behind others is tracked;
* **`Settled.showsWord`**, **`Tracks.showsWord`** — so the page shows it on its line, or on the next
  one;
* **`run_firstWord`** — the first word of a text is shown so from where its text is read. -/

namespace ChapterLayout

/-- A word at the start of a text is the start of the first word there. -/
theorem Text.exists_words_append {p : Char → Bool} {word : Text} (hne : word ≠ [])
    (hword : ∀ c ∈ word, p c = false) (t : Text) :
    ∃ more rest, words p (word ++ t) = (word ++ more) :: rest := by
  induction word with
  | nil => exact absurd rfl hne
  | cons c word ih =>
    obtain ⟨hc, hletters⟩ := List.forall_mem_cons.1 hword
    cases word with
    | nil => exact exists_words_cons hc
    | cons d word =>
      obtain ⟨more, rest, hrest⟩ := ih (List.cons_ne_nil d word) hletters
      exact ⟨more, rest, words_cons_cons_letter hc (hletters d List.mem_cons_self) hrest⟩

/-- **A line that goes on with a word** behind its start has the words of the start, and then one
that begins with that word. -/
theorem Text.exists_words_behind {start word line : Text} (hstart : start.IsStart)
    (hne : word ≠ []) (hword : ∀ c ∈ word, isFlowBlank c = false) (h : start ++ word <+: line) :
    ∃ more rest, words isFlowBlank line =
      words isFlowBlank start ++ (word ++ more) :: rest := by
  obtain ⟨t, rfl⟩ := h
  have hlast : ∀ c, start.getLast? = some c → isFlowBlank c = true := by
    intro c hc
    rcases hstart with rfl | hspace
    · cases hc
    · rw [hspace] at hc
      cases hc
      rfl
  obtain ⟨more, rest, hrest⟩ := exists_words_append hne hword t
  exact ⟨more, rest, by rw [List.append_assoc, words_append_of_getLast hlast, hrest]⟩

/-- Whether a line of a page has the words of a text and behind them the given one. -/
def Page.ShowsWord (page : Page) (n : Nat) (start word : Text) : Prop :=
  ∃ line rest, page.lines[n]? = some line ∧
    Text.words Text.isFlowBlank line = Text.words Text.isFlowBlank start ++ word :: rest

/-- A line that shows a word is on the page. -/
theorem Page.ShowsWord.lt {page : Page} {n : Nat} {start word : Text}
    (h : page.ShowsWord n start word) : n < page.lines.length := by
  obtain ⟨line, rest, hline, -⟩ := h
  exact (List.getElem?_eq_some_iff.1 hline).1

namespace Flow

variable {settings : Settings} {flow a b : Flow} {n k : Nat} {s start next word piece : Text}
  {glue : Bool}

/-! ## (1) Texts that stay -/

/-- Whether a line starts with a text that ends in a letter, and the last word, should it move,
leaves that text behind. -/
structure Settled (flow : Flow) (n : Nat) (s : Text) : Prop where
  starts : flow.LineStarts n s
  last : ∃ c, s.getLast? = some c ∧ Text.isSpace c = false
  behind : n = flow.lineIndex → flow.wordMovable = true → s.length ≤ flow.wordStart

/-- A text does not stand behind the line that is being filled. -/
theorem LineStarts.le (h : flow.LineStarts n s) : n ≤ flow.lineIndex := by
  rcases h with ⟨line, hline, -⟩ | ⟨rfl, -, -⟩
  · exact Nat.le_of_lt (List.getElem?_eq_some_iff.1 hline).1
  · exact Nat.le_refl _

/-- On the line that is being filled, a text is the start of that line. -/
theorem LineStarts.current (h : flow.LineStarts n s) (hn : n = flow.lineIndex) :
    s <+: flow.current := by
  rcases h with ⟨line, hline, -⟩ | ⟨-, -, hs⟩
  · exact absurd (List.getElem?_eq_some_iff.1 hline).1 (by rw [hn]; exact Nat.lt_irrefl _)
  · exact hs

/-- **A step that only adds** and starts no word leaves a settled text where it is. -/
theorem Settled.appends (h : a.Settled n s) (hab : Appends a b) (hstart : b.wordStart = a.wordStart)
    (hmovable : b.wordMovable = a.wordMovable) : b.Settled n s := by
  refine ⟨h.starts.appends hab, h.last, fun hn hm => ?_⟩
  have hindex : a.lineIndex ≤ b.lineIndex := hab.page.lines.length_le
  have hle := h.starts.le
  rw [hstart]
  exact h.behind (by omega) (hmovable ▸ hm)

/-- **Plain changes** start no word. -/
theorem Plain.word_eq (h : Plain settings a b) :
    b.wordStart = a.wordStart ∧ b.wordMovable = a.wordMovable := by
  cases h with
  | anchor attributes =>
    obtain ⟨anchors, hanchors⟩ := exists_recordAnchor a attributes
    rw [hanchors]
    exact ⟨rfl, rfl⟩
  | piece hpre piece hne =>
    rw [addPiece_of_ne_nil hne]
    exact ⟨rfl, rfl⟩
  | commitPre =>
    obtain ⟨page, spans, heq, -⟩ := exists_commitPre_lines settings a
    rw [heq]
    exact ⟨rfl, rfl⟩
  | _ => exact ⟨rfl, rfl⟩

/-- **A fresh word** lets what stands before it settle. -/
theorem LineStarts.settled_fresh (h : flow.LineStarts n s)
    (hlast : ∃ c, s.getLast? = some c ∧ Text.isSpace c = false)
    (hfresh : (glue && flow.hasWords) = false) (hne : word ≠ []) :
    (flow.addWord settings word glue).Settled n s := by
  have hne' : flow.pendingMark ++ word ≠ [] := List.append_ne_nil_of_right_ne_nil _ hne
  have hroom : Appends flow ((flow.unmarked.beginLine settings).makeRoom settings
      (flow.pendingMark ++ word)) :=
    (appends_unmarked flow).trans ((appends_beginLine _).trans (appends_makeRoom _ _))
  refine ⟨h.appends (appends_fresh hfresh hne), hlast, fun hn _ => ?_⟩
  rw [addWord_fresh hfresh] at hn ⊢
  exact ((h.appends hroom).current hn).length_le

/-- **A word that moves** leaves a settled text on its line. -/
theorem Settled.moveWord (h : flow.Settled n s) (hmovable : flow.wordMovable = true) :
    flow.moveWord.Settled n s := by
  have hlines : flow.moveWord.page.lines = flow.page.lines ++ [flow.brokenLine] := rfl
  have hindex : flow.moveWord.lineIndex = flow.lineIndex + 1 := by
    rw [lineIndex, hlines, List.length_append]
    rfl
  refine ⟨.inl ?_, h.last, fun hn => ?_⟩
  · rw [hlines]
    rcases h.starts with ⟨line, hline, hs⟩ | ⟨rfl, -, hs⟩
    · refine ⟨line, ?_, hs⟩
      rw [List.getElem?_append_left (List.getElem?_eq_some_iff.1 hline).1]
      exact hline
    · refine ⟨flow.brokenLine, List.getElem?_concat_length, ?_⟩
      -- Trimming the spaces before the word does not reach the settled text.
      obtain ⟨c, hc, hletter⟩ := h.last
      obtain ⟨rest, hrest⟩ := List.prefix_take_iff.2 ⟨hs, h.behind rfl hmovable⟩
      obtain ⟨blanks, hblanks, -⟩ :=
        Text.exists_trimRight_append (flow.current.take flow.wordStart)
      have hle := Text.length_le_trimRight_append hc hletter rest
      rw [hrest] at hle
      exact List.prefix_of_prefix_length_le ⟨rest, hrest⟩ ⟨blanks, hblanks.symm⟩ hle
  · have hle := h.starts.le
    omega

/-- **A piece of the last word** leaves a settled text where it is, also if the word moves. -/
theorem Settled.fitWord (h : a.Settled n s) (hl : Lengthens a b) :
    (b.fitWord settings).Settled n s := by
  have hb : b.Settled n s := h.appends hl.appends hl.wordStart hl.wordMovable
  rw [fitWord_eq]
  split
  · exact hb
  · rename_i hmoves
    simp only [Bool.or_eq_true, not_or, Bool.not_eq_true', Bool.not_eq_false] at hmoves
    exact hb.moveWord hmoves.2

/-- The piece that a glued word is, with the mark before it. -/
theorem lengthens_glued (flow : Flow) (hne : word ≠ []) :
    Lengthens flow (flow.unmarked.place (flow.pendingMark ++ word)) := by
  have hpiece := lengthens_place flow.unmarked
    (List.append_ne_nil_of_right_ne_nil flow.pendingMark hne)
  exact ⟨hpiece.page, hpiece.context, hpiece.current, hpiece.spans, hpiece.links, rfl, rfl, rfl,
    rfl, rfl⟩

/-- **No change moves a settled text.** -/
theorem Settled.change (h : a.Settled n s) (hbegun : a.Begun settings)
    (hc : Change settings a b) : b.Settled n s := by
  rcases hc.plain_or with hplain | ⟨hnil, rfl⟩ | ⟨word, glue, -, hne, -, rfl⟩ | ⟨hw, rfl⟩
  · obtain ⟨hstart, hmovable⟩ := hplain.word_eq
    exact h.appends (hplain.appends hbegun) hstart hmovable
  · obtain ⟨spans, heq⟩ := exists_atItem settings a
    refine h.appends (appends_atItem (hbegun.hasWords_eq_false hnil)) ?_ ?_
    all_goals rw [heq]
  · by_cases hglue : (glue && a.hasWords) = true
    · obtain ⟨rfl, hw⟩ := Bool.and_eq_true_iff.1 hglue
      rw [addWord_glued hw]
      exact h.fitWord (lengthens_glued a hne)
    · exact h.starts.settled_fresh h.last (by simpa using hglue) hne
  · exact h.fitWord (lengthens_atCodeEnd a hw)

/-- A text that stays at the start of its line stays there when the state changes. -/
theorem Settled.changes (h : a.Settled n s) (hbegun : a.Begun settings)
    (hc : Changes settings a b) : b.Settled n s := by
  induction hc with
  | refl => exact h
  | tail hab hbc ih => exact ih.change (hbegun.changes hab) hbc

/-! ## (2) Words that may still move -/

/-- What stands before a fresh word if there is room for it on the line: the words before it and a
space, or the start of the line. -/
def beforeWord (settings : Settings) (flow : Flow) : Line :=
  if flow.hasWords then flow.current ++ [' '] else flow.firstStart settings

/-- Whether a word, with pieces glued to it, stands last on a line behind other words. -/
structure Unsettled (flow : Flow) (k : Nat) (start next word : Text) : Prop where
  lineIndex : flow.lineIndex = k
  hasWords : flow.hasWords = true
  movable : flow.wordMovable = true
  wordStart : flow.wordStart = start.length
  continuation : flow.continuation = next
  current : ∃ more, (∀ c ∈ more, Text.isFlowBlank c = false) ∧
    flow.current = start ++ (word ++ more)

/-- Where a word is that was put on line `k` behind `start` or on the next line behind `next`: it
may still move, or it stays on its line, or it stays on the next one because it does not fit. -/
inductive Tracks (settings : Settings) (k : Nat) (start next word : Text) (flow : Flow) : Prop
  | still (h : flow.Unsettled k start next word)
  | here (h : flow.Settled k (start ++ word))
  | below (more : Text) (hmore : ∀ c ∈ more, Text.isFlowBlank c = false)
      (hwide : settings.maxWidth < (Text.width (start ++ (word ++ more)) : Int))
      (h : flow.Settled (k + 1) (next ++ (word ++ more)))

/-- A letter that is no blank is no space. -/
theorem isSpace_of_isFlowBlank {c : Char} (h : Text.isFlowBlank c = false) :
    Text.isSpace c = false := by
  simp only [Text.isFlowBlank, Bool.or_eq_false_iff] at h
  exact h.1

/-- A text with a word at its end ends in a letter. -/
theorem exists_getLast?_append (s : Text) (hne : word ≠ [])
    (hword : ∀ c ∈ word, Text.isFlowBlank c = false) :
    ∃ c, (s ++ word).getLast? = some c ∧ Text.isSpace c = false := by
  refine ⟨word.getLast hne, ?_, isSpace_of_isFlowBlank (hword _ (List.getLast_mem hne))⟩
  rw [List.getLast?_append, List.getLast?_eq_some_getLast hne]
  rfl

namespace Unsettled

/-- The line of a word starts with the text before it and the word. -/
theorem starts (h : flow.Unsettled k start next word) : flow.LineStarts k (start ++ word) := by
  obtain ⟨more, -, hcurrent⟩ := h.current
  refine .inr ⟨h.lineIndex.symm, h.hasWords, ?_⟩
  rw [hcurrent, ← List.append_assoc]
  exact List.prefix_append _ _

/-- The line that is being filled holds the word. -/
theorem current_ne_nil (h : flow.Unsettled k start next word) (hne : word ≠ []) :
    flow.current ≠ [] := by
  obtain ⟨more, -, hcurrent⟩ := h.current
  simp [hcurrent, hne]

/-- **Plain changes** let the word go on or, with its line, settle. -/
theorem plain (h : a.Unsettled k start next word) (hne : word ≠ [])
    (hword : ∀ c ∈ word, Text.isFlowBlank c = false) (hbegun : a.Begun settings)
    (hplain : Plain settings a b) : b.Tracks settings k start next word := by
  -- A step that leaves the line as it is leaves the word on it.
  have hgoes : ∀ {b : Flow}, b.page.lines = a.page.lines → b.hasWords = a.hasWords →
      b.wordMovable = a.wordMovable → b.wordStart = a.wordStart →
      b.continuation = a.continuation → b.current = a.current →
      b.Tracks settings k start next word := by
    intro b hlines hw hmovable hstart hcontinuation hcurrent
    refine .still ⟨?_, hw.trans h.hasWords, hmovable.trans h.movable, hstart.trans h.wordStart,
      hcontinuation.trans h.continuation, hcurrent ▸ h.current⟩
    rw [Flow.lineIndex, hlines]
    exact h.lineIndex
  -- There is a word on the line, so that it is not empty and no line of preformatted text.
  have hbegins : a.current = [] → b.Tracks settings k start next word := fun hnil =>
    absurd hnil (h.current_ne_nil hne)
  have hcode : a.context.inPre = true → b.Tracks settings k start next word := fun hpre =>
    absurd h.hasWords (by simp [hbegun.hasWords_of_inPre hpre])
  cases hplain with
  | quiet => exact hgoes rfl rfl rfl rfl rfl rfl
  | anchor attributes =>
    obtain ⟨anchors, hanchors⟩ := exists_recordAnchor a attributes
    rw [hanchors]
    exact hgoes rfl rfl rfl rfl rfl rfl
  | heading => exact hgoes rfl rfl rfl rfl rfl rfl
  | headingLine => exact hgoes rfl rfl rfl rfl rfl rfl
  | pendingMark => exact hgoes rfl rfl rfl rfl rfl rfl
  | leavePre => exact hgoes rfl rfl rfl rfl rfl rfl
  -- The line goes to the page, and the word with it: from now on it stays where it is.
  | commit =>
    refine .here ⟨h.starts.appends (appends_commit a), exists_getLast?_append start hne hword,
      fun hn => ?_⟩
    have hindex : a.commit.lineIndex = a.lineIndex + 1 := List.length_append
    have hk := h.lineIndex
    omega
  | blank hnil => exact hbegins hnil
  | reset hnil => exact hbegins hnil
  | block hnil => exact hbegins hnil
  | image hnil => exact hbegins hnil
  | rule hnil => exact hbegins hnil
  | tableLine hnil => exact hbegins hnil
  | piece hpre => exact hcode hpre
  | commitPre hpre => exact hcode hpre

/-- **A piece** that is glued to the word stays with it, and the word moves if it does not fit
then. -/
theorem fitWord (h : a.Unsettled k start next word) (hne : word ≠ [])
    (hword : ∀ c ∈ word, Text.isFlowBlank c = false)
    (hpiece : ∀ c ∈ piece, Text.isFlowBlank c = false) (hlines : b.page.lines = a.page.lines)
    (hw : b.hasWords = true) (hmovable : b.wordMovable = a.wordMovable)
    (hstart : b.wordStart = a.wordStart) (hcontinuation : b.continuation = a.continuation)
    (hcurrent : b.current = a.current ++ piece) :
    (b.fitWord settings).Tracks settings k start next word := by
  obtain ⟨more, hmore, hline⟩ := h.current
  have hletters : ∀ c ∈ more ++ piece, Text.isFlowBlank c = false := fun c hc =>
    (List.mem_append.1 hc).elim (hmore c) (hpiece c)
  have hfilled : b.current = start ++ (word ++ (more ++ piece)) := by
    rw [hcurrent, hline]
    simp only [List.append_assoc]
  have hindex : b.lineIndex = k := by
    rw [Flow.lineIndex, hlines]
    exact h.lineIndex
  have hbegin : b.wordStart = start.length := hstart.trans h.wordStart
  rw [fitWord_eq]
  -- The line is fitting, or the word moves, and then the text before it is too wide with it.
  split
  · exact .still ⟨hindex, hw, hmovable.trans h.movable, hbegin, hcontinuation.trans h.continuation,
      more ++ piece, hletters, hfilled⟩
  · rename_i hmoves
    simp only [Bool.or_eq_true, not_or, Bool.not_eq_true', Bool.not_eq_false, decide_eq_true_eq,
      not_le] at hmoves
    have hnext : b.moveWord.current = next ++ (word ++ (more ++ piece)) := by
      show b.continuation ++ b.current.drop b.wordStart = _
      rw [hfilled, hbegin, List.drop_left, hcontinuation, h.continuation]
    have hmoved : b.moveWord.lineIndex = k + 1 := by
      rw [← hindex]
      exact List.length_append
    have hletters' : ∀ c ∈ word ++ (more ++ piece), Text.isFlowBlank c = false := fun c hc =>
      (List.mem_append.1 hc).elim (hword c) (hletters c)
    refine .below (more ++ piece) hletters (hfilled ▸ hmoves.1) ⟨.inr ⟨hmoved.symm, rfl, ?_⟩,
      exists_getLast?_append next (List.append_ne_nil_of_left_ne_nil hne _) hletters',
      fun _ hm => absurd hm Bool.false_ne_true⟩
    rw [hnext]

end Unsettled

/-- **A change** leaves a tracked word on its line, or moves it to the next one because it does not
fit. -/
theorem Tracks.change (h : a.Tracks settings k start next word) (hne : word ≠ [])
    (hword : ∀ c ∈ word, Text.isFlowBlank c = false) (hbegun : a.Begun settings)
    (hc : Change settings a b) : b.Tracks settings k start next word := by
  cases h with
  | here h => exact .here (h.change hbegun hc)
  | below more hmore hwide h => exact .below more hmore hwide (h.change hbegun hc)
  | still h =>
    rcases hc.plain_or with hplain | ⟨hnil, rfl⟩ | ⟨piece, glue, -, hpiece, hletters, rfl⟩ |
      ⟨hw, rfl⟩
    · exact h.plain hne hword hbegun hplain
    · exact absurd hnil (h.current_ne_nil hne)
    · by_cases hglue : (glue && a.hasWords) = true
      · obtain ⟨rfl, hw⟩ := Bool.and_eq_true_iff.1 hglue
        rw [addWord_glued hw]
        exact h.fitWord hne hword (mark_isLetter hbegun.pendingMark hletters)
          rfl rfl rfl rfl rfl rfl
      · exact .here (h.starts.settled_fresh (exists_getLast?_append start hne hword)
          (by simpa using hglue) hpiece)
    · have hmark : ∀ c ∈ ['\x60'], Text.isFlowBlank c = false := List.forall_mem_singleton.2 rfl
      exact h.fitWord hne hword hmark rfl hw rfl rfl rfl rfl

/-- The place of a word is still known when the state changes. -/
theorem Tracks.changes (h : a.Tracks settings k start next word) (hne : word ≠ [])
    (hword : ∀ c ∈ word, Text.isFlowBlank c = false) (hbegun : a.Begun settings)
    (hc : Changes settings a b) : b.Tracks settings k start next word := by
  induction hc with
  | refl => exact h
  | tail hab hbc ih => exact ih.change hne hword (hbegun.changes hab) hbc

/-! ## (3) Fresh words -/

/-- A line that is begun for a word holds its start. -/
theorem beginLine_bare (hw : flow.hasWords = false) :
    (flow.unmarked.beginLine settings).page = flow.page ∧
      (flow.unmarked.beginLine settings).hasWords = false ∧
      (flow.unmarked.beginLine settings).current = flow.beforeWord settings := by
  have hstart : flow.beforeWord settings = flow.firstStart settings := by simp [beforeWord, hw]
  rw [hstart, firstStart]
  split
  · rename_i hnil
    have hbegin : flow.unmarked.beginLine settings = _ := beginLine_of_empty hw hnil
    rw [hbegin]
    exact ⟨rfl, hw, rfl⟩
  · rename_i hne
    have hbegin : flow.unmarked.beginLine settings = flow.unmarked := beginLine_of_begun hne
    rw [hbegin]
    exact ⟨rfl, hw, rfl⟩

/-- What stands before a word ends in a space, if it is not empty. -/
theorem Fitted.isStart_beforeWord (h : flow.Fitted settings) (hpre : flow.context.inPre = false) :
    (flow.beforeWord settings).IsStart := by
  cases hw : flow.hasWords with
  | true =>
    rw [beforeWord, hw, if_pos rfl]
    exact .inr List.getLast?_concat
  | false =>
    rw [← (beginLine_bare hw).2.2]
    exact (h.unmarked.startsLine_beginLine hpre hw).2.isStart

/-- So does the start of the next line. -/
theorem Fitted.isStart_continuation (h : flow.Fitted settings) (hw : flow.hasWords = true) :
    flow.continuation.IsStart := (h.worded hw).continuation.isStart

/-- **The first word of a line** stays where it is put. -/
theorem settled_addWord (h : flow.Fitted settings) (hpre : flow.context.inPre = false)
    (hw : flow.hasWords = false) (hne : word ≠ [])
    (hword : ∀ c ∈ word, Text.isFlowBlank c = false) (glue : Bool) :
    (flow.addWord settings word glue).Settled flow.lineIndex
      (flow.beforeWord settings ++ (flow.pendingMark ++ word)) := by
  obtain ⟨hpage, hbare, hcurrent⟩ := @beginLine_bare settings _ hw
  have hfresh : (glue && flow.hasWords) = false := by rw [hw, Bool.and_false]
  have hroom := (h.unmarked.hasRoom_beginLine hpre hw (flow.pendingMark ++ word)).1
  have hne' : flow.pendingMark ++ word ≠ [] := List.append_ne_nil_of_right_ne_nil _ hne
  rw [addWord_fresh hfresh, hroom]
  refine ⟨.inr ⟨?_, rfl, ?_⟩,
    exists_getLast?_append _ hne' (mark_isLetter h.begun.pendingMark hword), fun _ hm => ?_⟩
  · show flow.page.lines.length = (flow.unmarked.beginLine settings).page.lines.length
    rw [hpage]
  · show _ <+: (flow.unmarked.beginLine settings).current ++ _
    rw [hcurrent]
  · -- No word stands before it that it could leave behind.
    have hmovable : (flow.unmarked.beginLine settings).hasWords = true := hm
    exact absurd (hbare.symm.trans hmovable) Bool.false_ne_true

/-- **A fresh word** behind other ones is tracked: it is put on their line or on the next one. -/
theorem tracks_addWord (h : flow.Fitted settings) (hw : flow.hasWords = true) (hne : word ≠ [])
    (hword : ∀ c ∈ word, Text.isFlowBlank c = false) :
    (flow.addWord settings word false).Tracks settings flow.lineIndex (flow.beforeWord settings)
      flow.continuation (flow.pendingMark ++ word) := by
  obtain ⟨c, hc, hletter⟩ := (h.begun.word hw).2.getLast
  have hseparator : flow.unmarked.separator = [' '] := separator_of_letter hc hletter
  have hstart : flow.beforeWord settings = flow.current ++ [' '] := by simp [beforeWord, hw]
  have hletters := mark_isLetter h.begun.pendingMark hword
  have hne' : flow.pendingMark ++ word ≠ [] := List.append_ne_nil_of_right_ne_nil _ hne
  have hwidth : (Text.width (flow.beforeWord settings ++ (flow.pendingMark ++ word)) : Int) =
      Text.width flow.unmarked.current + flow.unmarked.separator.length +
        Text.width (flow.pendingMark ++ word) := by
    rw [hstart, Text.width_append, Text.width_append, hseparator]
    rfl
  have hbegin : flow.unmarked.beginLine settings = flow.unmarked := beginLine_of_hasWords hw
  rw [addWord_fresh (Bool.false_and _), hbegin]
  by_cases hfits : (Text.width (flow.beforeWord settings ++ (flow.pendingMark ++ word)) : Int) ≤
      settings.maxWidth
  · -- The word stands behind the others, and can still follow a piece to the next line.
    rw [makeRoom_stay (.inl (hwidth ▸ hfits)), hseparator]
    refine .still ⟨rfl, rfl, hw, ?_, rfl, [], fun _ hmem => absurd hmem List.not_mem_nil, ?_⟩
    · rw [hstart]
      rfl
    · rw [hstart, List.append_nil]
      rfl
  · have hwide : settings.maxWidth < (Text.width flow.unmarked.current +
        flow.unmarked.separator.length + Text.width (flow.pendingMark ++ word) : Int) := by omega
    rw [makeRoom_wrap hwide hw]
    refine .below [] (fun _ hmem => absurd hmem List.not_mem_nil) ?_ ?_
    · rw [List.append_nil]
      omega
    · rw [List.append_nil]
      refine ⟨.inr ⟨?_, rfl, List.prefix_rfl⟩, exists_getLast?_append _ hne' hletters,
        fun _ hm => absurd hm Bool.false_ne_true⟩
      show flow.page.lines.length + 1 = (flow.page.lines ++ [flow.current]).length
      rw [List.length_append]
      rfl

/-! ## (4) Texts -/

/-- Text goes to the lines of the page. -/
structure TakesText (flow : Flow) : Prop where
  rawDepth : flow.context.rawDepth = 0
  inHead : flow.context.inHead = false
  inPre : flow.context.inPre = false
  inTable : flow.context.table.inTable = false

/-- **Text** is collected for the heading that is open, and laid out as words. -/
theorem TakesText.feedText (h : flow.TakesText) (s : Text) :
    flow.feedText settings s = (flow.collectHeading s).addText settings s := by
  rw [feedText_eq]
  simp [h.rawDepth, h.inHead, h.inPre, h.inTable]

/-- The words behind the first one of a text are laid out by changes. -/
theorem addWords_changes (words : List Text) (hne : ∀ w ∈ words, w ≠ [])
    (hword : ∀ w ∈ words, ∀ c ∈ w, Text.isFlowBlank c = false)
    (hpre : flow.context.inPre = false) :
    Changes settings flow (flow.addWords settings words) := by
  refine addWords_preserves (P := Changes settings flow) ?_ words hne hword rfl
    Relation.ReflTransGen.refl
  intro a w glue hcontext hne hletter h
  exact h.tail (.word a (hcontext ▸ hpre) w hne hletter glue)

/-- **A text with words** lays out its first word where the line stands, and the rest is changes. -/
theorem exists_firstWord {ws : List Text} (h : flow.TakesText) (hfitted : flow.Fitted settings)
    (hwords : Text.words Text.isFlowBlank s = word :: ws) :
    ∃ start : Flow, start.Fitted settings ∧ start.context.inPre = false ∧
      (start.lineIndex, start.hasWords, start.beforeWord settings, start.continuation,
          start.pendingMark) =
        (flow.lineIndex, flow.hasWords, flow.beforeWord settings, flow.continuation,
          flow.pendingMark) ∧
      Changes settings (start.addWord settings word (flow.glue && !startsBlank s))
        (flow.feedText settings s) := by
  have hne : s ≠ [] := by
    rintro rfl
    cases hwords
  have hothers : ∀ w ∈ ws, w ∈ Text.words Text.isFlowBlank s := fun w hw =>
    hwords ▸ List.mem_cons_of_mem _ hw
  -- Collecting the text for a heading does not touch the line.
  obtain ⟨headingText, hcollect⟩ := exists_collectHeading flow s
  refine ⟨flow.collectHeading s, ?_, ?_, ?_, ?_⟩
  · rw [hcollect]
    exact hfitted.of_line ⟨hfitted.begun.pendingMark, hfitted.begun.word, hfitted.begun.bare⟩
      (fun _ _ => id) rfl
  · rw [hcollect]
    exact h.inPre
  · rw [hcollect]
    rfl
  · rw [h.feedText, hcollect, addText, if_neg (by simpa using hne), hwords]
    dsimp only
    refine Relation.ReflTransGen.tail (addWords_changes ws
      (fun w hw => Text.ne_nil_of_mem_words (hothers w hw))
      (fun w hw c hc => Text.letter_of_mem_words (hothers w hw) hc) ?_) (.glue _ _)
    rw [addWord_context]
    exact h.inPre

/-- **The first word of a text** stays on the line that is being filled, if this holds no word. -/
theorem settled_feedText {ws : List Text} (h : flow.TakesText) (hfitted : flow.Fitted settings)
    (hw : flow.hasWords = false) (hwords : Text.words Text.isFlowBlank s = word :: ws) :
    (flow.feedText settings s).Settled flow.lineIndex
      (flow.beforeWord settings ++ (flow.pendingMark ++ word)) := by
  have hmem : word ∈ Text.words Text.isFlowBlank s := hwords ▸ List.mem_cons_self
  have hne := Text.ne_nil_of_mem_words hmem
  have hword : ∀ c ∈ word, Text.isFlowBlank c = false := fun c hc =>
    Text.letter_of_mem_words hmem hc
  obtain ⟨start, hstart, hpre, hsame, hchanges⟩ := exists_firstWord h hfitted hwords
  simp only [Prod.mk.injEq] at hsame
  obtain ⟨hindex, hhas, hbefore, -, hmark⟩ := hsame
  rw [← hindex, ← hbefore, ← hmark]
  exact (settled_addWord hstart hpre (hhas.trans hw) hne hword _).changes
    (hstart.begun.change (.word start hpre word hne hword _)) hchanges

/-- **The first word of a text** is tracked from the line that is being filled on, if it is not
glued to a word there. -/
theorem tracks_feedText {ws : List Text} (h : flow.TakesText) (hfitted : flow.Fitted settings)
    (hw : flow.hasWords = true) (hfresh : (flow.glue && !startsBlank s) = false)
    (hwords : Text.words Text.isFlowBlank s = word :: ws) :
    (flow.feedText settings s).Tracks settings flow.lineIndex (flow.beforeWord settings)
      flow.continuation (flow.pendingMark ++ word) := by
  have hmem : word ∈ Text.words Text.isFlowBlank s := hwords ▸ List.mem_cons_self
  have hne := Text.ne_nil_of_mem_words hmem
  have hword : ∀ c ∈ word, Text.isFlowBlank c = false := fun c hc =>
    Text.letter_of_mem_words hmem hc
  obtain ⟨start, hstart, hpre, hsame, hchanges⟩ := exists_firstWord h hfitted hwords
  simp only [Prod.mk.injEq] at hsame
  obtain ⟨hindex, hhas, hbefore, hcontinuation, hmark⟩ := hsame
  rw [hfresh] at hchanges
  rw [← hindex, ← hbefore, ← hcontinuation, ← hmark]
  exact (tracks_addWord hstart (hhas.trans hw) hne hword).changes
    (List.append_ne_nil_of_right_ne_nil _ hne) (mark_isLetter hstart.begun.pendingMark hword)
    (hstart.begun.change (.word start hpre word hne hword _)) hchanges

/-! ## (5) Pages -/

/-- From the first tokens of a chapter, changes lead to the state in which all lines are on the
page. -/
theorem changes_to_flush {first tokens : List Token} (h : first <+: tokens) :
    Changes settings (feedAll {} settings first)
      ((feedAll {} settings tokens).flush settings) := by
  obtain ⟨more, rfl⟩ := h
  rw [feedAll_append]
  exact (feedAll_changes _ more).trans (flush_changes _)

/-- When no line is being filled, a settled text starts its line on the page, and that line is not
dropped with the blank ones. -/
theorem Settled.page (h : flow.Settled n s) (hbegun : flow.Begun settings)
    (hnil : flow.current = []) :
    ∃ line, (dropTrailingBlanks flow.page.lines)[n]? = some line ∧ s <+: line := by
  obtain ⟨hstarts, ⟨c, hc, -⟩, -⟩ := h
  rcases hstarts with ⟨line, hline, hs⟩ | ⟨-, hw, -⟩
  · have hne : line ≠ [] := by
      rintro rfl
      rw [List.prefix_nil.1 hs] at hc
      cases hc
    exact ⟨line, getElem?_dropTrailingBlanks hline (lt_length_dropTrailingBlanks hline hne), hs⟩
  · exact absurd hnil (hbegun.word hw).2.current_ne_nil

/-- **A settled word** is shown on its line. -/
theorem Settled.showsWord {first tokens : List Token} (hfirst : first <+: tokens)
    (hstart : start.IsStart) (hne : word ≠ [])
    (hword : ∀ c ∈ word, Text.isFlowBlank c = false)
    (h : (feedAll {} settings first).Settled n (start ++ word)) :
    ∃ more, (run settings tokens).page.ShowsWord n start (word ++ more) := by
  have hbegun := begun_feedAll settings first
  have hchanges := @changes_to_flush settings _ _ hfirst
  obtain ⟨line, hline, hprefix⟩ :=
    (h.changes hbegun hchanges).page (hbegun.changes hchanges) (flush_current settings _)
  obtain ⟨more, rest, hwords⟩ := Text.exists_words_behind hstart hne hword hprefix
  exact ⟨more, line, rest, hline, hwords⟩

/-- **A tracked word** is shown on its line, or on the next one because it does not fit. -/
theorem Tracks.showsWord {first tokens : List Token} (hfirst : first <+: tokens)
    (hstart : start.IsStart) (hnext : next.IsStart) (hne : word ≠ [])
    (hword : ∀ c ∈ word, Text.isFlowBlank c = false)
    (h : (feedAll {} settings first).Tracks settings k start next word) :
    ∃ more, (run settings tokens).page.ShowsWord k start (word ++ more) ∨
      (run settings tokens).page.ShowsWord (k + 1) next (word ++ more) ∧
        settings.maxWidth < (Text.width (start ++ (word ++ more)) : Int) := by
  have hbegun := begun_feedAll settings first
  have hchanges := @changes_to_flush settings _ _ hfirst
  have hflushed := hbegun.changes hchanges
  have hnil := flush_current settings (feedAll {} settings tokens)
  cases h.changes hne hword hbegun hchanges with
  | still h => exact absurd hnil (h.current_ne_nil hne)
  | here h =>
    obtain ⟨line, hline, hprefix⟩ := h.page hflushed hnil
    obtain ⟨more, rest, hwords⟩ := Text.exists_words_behind hstart hne hword hprefix
    exact ⟨more, .inl ⟨line, rest, hline, hwords⟩⟩
  | below more hmore hwide h =>
    obtain ⟨line, hline, hprefix⟩ := h.page hflushed hnil
    have hletters : ∀ c ∈ word ++ more, Text.isFlowBlank c = false := fun c hc =>
      (List.mem_append.1 hc).elim (hword c) (hmore c)
    obtain ⟨more', rest, hwords⟩ := Text.exists_words_behind hnext
      (List.append_ne_nil_of_left_ne_nil hne more) hletters hprefix
    rw [List.append_assoc word] at hwords
    refine ⟨more ++ more', .inr ⟨⟨line, rest, hline, hwords⟩, ?_⟩⟩
    -- Letters that are glued to the word later on only make it wider.
    rw [← List.append_assoc word, ← List.append_assoc start, Text.width_append]
    omega

/-- **Where the first word of a text is shown.** If it is not glued to a word, it is on the line
that is being filled when its text is read, or on the next one if it does not fit behind the words
there. -/
theorem run_firstWord {tokens before after : List Token} {ws : List Text}
    (htokens : tokens = before ++ .text s :: after)
    (hplace : (feedAll {} settings before).TakesText)
    (hwords : Text.words Text.isFlowBlank s = word :: ws)
    (hfresh : (feedAll {} settings before).hasWords = true →
      ((feedAll {} settings before).glue && !startsBlank s) = false) :
    let flow := feedAll {} settings before
    ∃ shown, flow.pendingMark ++ word <+: shown ∧
      ((run settings tokens).page.ShowsWord flow.lineIndex (flow.beforeWord settings) shown ∨
        (run settings tokens).page.ShowsWord (flow.lineIndex + 1) flow.continuation shown ∧
          flow.hasWords = true ∧
          settings.maxWidth < (Text.width (flow.beforeWord settings ++ shown) : Int)) := by
  intro flow
  have hfitted : flow.Fitted settings := fitted_feedAll settings before
  have hfed : feedAll {} settings (before ++ [.text s]) = flow.feedText settings s :=
    feedAll_append ..
  -- What is shown at the end is what the state behind the text knows of its first word.
  have hfirst : before ++ [.text s] <+: tokens := ⟨after, by simp [htokens]⟩
  have hmem : word ∈ Text.words Text.isFlowBlank s := hwords ▸ List.mem_cons_self
  have hletters := mark_isLetter hfitted.begun.pendingMark
    (fun c hc => Text.letter_of_mem_words hmem hc)
  have hne : flow.pendingMark ++ word ≠ [] :=
    List.append_ne_nil_of_right_ne_nil _ (Text.ne_nil_of_mem_words hmem)
  have hstart := hfitted.isStart_beforeWord hplace.inPre
  -- Without a word before it the word starts its line, and has no reason to move.
  cases hw : flow.hasWords with
  | false =>
    have hsettled := settled_feedText hplace hfitted hw hwords
    rw [← hfed] at hsettled
    obtain ⟨more, hmore⟩ := hsettled.showsWord hfirst hstart hne hletters
    exact ⟨_, List.prefix_append _ more, .inl hmore⟩
  -- Behind another word it starts the next line if it does not fit.
  | true =>
    have htracks := tracks_feedText hplace hfitted hw (hfresh hw) hwords
    rw [← hfed] at htracks
    obtain ⟨more, hmore⟩ := htracks.showsWord hfirst hstart (hfitted.isStart_continuation hw)
      hne hletters
    exact ⟨_, List.prefix_append _ more, hmore.imp_right fun h => ⟨h.1, rfl, h.2⟩⟩

end Flow

end ChapterLayout
