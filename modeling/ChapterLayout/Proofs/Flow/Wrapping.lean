import ChapterLayout.Proofs.Flow.Begun
import ChapterLayout.Proofs.Flow.Inline
import ChapterLayout.Proofs.Text.Wrap

/-! # Flow text is wrapped greedily

Words arrive in pieces, cut by inline tags anywhere, and the layout decides on each piece. The lines
are nevertheless those of the whole words wrapped greedily:

* **`LastWord`** — how far a wrapper of whole words has come when the last word is half built: it is
  the first word, or starts a line below the others, or stands beside the word before it;
* **`LastWord.lines_eq`** — the lines so far are those of the words with the half-built one at the
  end;
* **`Filled.glued`**, **`Filled.fresh`** — a piece that is glued continues the half-built word, and
  a fresh one starts the next word;
* **`feedAll_eq_wrap`** — the lines of any text within inline tags are the wrapped words of the
  text. -/

namespace ChapterLayout

namespace Text

/-- The last word `word` after `before`, half built: the lines above it, the line it stands on, the
column it starts at, and whether it can move to the next line. -/
inductive LastWord (maxWidth : Int) (first next : Line) (before : List Text) (word : Text) :
    List Line → Line → Nat → Bool → Prop
  /-- The word is the first one. -/
  | first (h : before = []) :
      LastWord maxWidth first next before word [] (first ++ word) first.length false
  /-- The line above has no room for the word. -/
  | below (above : List Line) (last : Line)
      (h : wrap maxWidth first next before = above ++ [last]) (hfit : ¬Fits maxWidth last word) :
      LastWord maxWidth first next before word (above ++ [last]) (next ++ word) next.length false
  /-- The word fits on the line of the word before it. -/
  | beside (above : List Line) (last : Line)
      (h : wrap maxWidth first next before = above ++ [last]) (hfit : Fits maxWidth last word)
      (hlast : ∃ c, last.getLast? = some c ∧ isFlowBlank c = false) :
      LastWord maxWidth first next before word above (last ++ ' ' :: word) (last.length + 1) true

variable {maxWidth : Int} {first next : Line} {before : List Text} {word rest : Text}
  {above : List Line} {line : Line} {start : Nat} {movable : Bool}

/-- **The lines of a half-built word** are those of the words with it at the end. -/
theorem LastWord.lines_eq (h : LastWord maxWidth first next before word above line start movable) :
    wrap maxWidth first next (before ++ [word]) = above ++ [line] := by
  cases h with
  | first h => simp [h]
  | below above last h hfit => simp [wrap_concat h, hfit]
  | beside above last h hfit => simp [wrap_concat h, hfit]

/-- A word that is the first one or starts a line stays there however long it gets. -/
theorem LastWord.extend_alone
    (h : LastWord maxWidth first next before word above line start false) :
    LastWord maxWidth first next before (word ++ rest) above (line ++ rest) start false := by
  cases h with
  | first h =>
    rw [List.append_assoc]
    exact .first h
  | below above last h hfit =>
    rw [List.append_assoc]
    exact .below above last h fun hlong => hfit hlong.of_append

/-- The line of a word that stands beside another one. -/
theorem LastWord.beside_inv (h : LastWord maxWidth first next before word above line start true) :
    ∃ last, wrap maxWidth first next before = above ++ [last] ∧ line = last ++ ' ' :: word ∧
      start = last.length + 1 ∧ ∃ c, last.getLast? = some c ∧ isFlowBlank c = false := by
  cases h with
  | beside above last h hfit hlast => exact ⟨last, h, rfl, rfl, hlast⟩

/-- The width of a line on which a word stands after another one. -/
theorem width_append_space (line word : Text) :
    width (line ++ ' ' :: word) = width line + 1 + width word := by
  rw [width_append, width_cons, charWidth_space]
  omega

/-- Before a word that stands after another one stand the other words and a space. -/
theorem take_append_space (line word : Text) :
    (line ++ ' ' :: word).take (line.length + 1) = line ++ [' '] := by
  rw [List.append_cons]
  exact List.take_left' (by simp)

/-- Behind a line and a space, a word is left of the whole. -/
theorem drop_append_space (line word : Text) :
    (line ++ ' ' :: word).drop (line.length + 1) = word := by
  rw [List.append_cons]
  exact List.drop_left' (by simp)

/-- Without the space at its end, a line is what it was before the space. -/
theorem trimRight_append_space {c : Char} {line : Text} (h : line.getLast? = some c)
    (hc : isFlowBlank c = false) : trimRight isSpace (line ++ [' ']) = line := by
  obtain ⟨s, rfl⟩ := List.getLast?_eq_some_iff.1 h
  have hspace : isSpace c = false := by
    simp only [isFlowBlank, Bool.or_eq_false_iff] at hc
    exact hc.1
  simp [trimRight, hspace, show isSpace ' ' = true from rfl]

end Text

namespace Flow

/-- The start of the first line of words: what the line holds already, or the indentation. -/
def firstStart (settings : Settings) (flow : Flow) : Line :=
  if flow.current = [] then flow.indent settings else flow.current

/-- The start of the other lines of words. -/
def nextStart (settings : Settings) (flow : Flow) : Line :=
  if flow.current = [] then flow.indent settings else flow.continuation

/-- The words `before` and the last word `word` are laid out since the state `start`. -/
structure Filled (settings : Settings) (start flow : Flow) (before : List Text) (word : Text) :
    Prop where
  lines : ∃ above, flow.page.lines = start.page.lines ++ above ∧
    Text.LastWord settings.maxWidth (start.firstStart settings) (start.nextStart settings) before
      word above flow.current flow.wordStart flow.wordMovable
  holds : flow.HoldsWord
  continuation : flow.continuation = start.nextStart settings
  pendingMark : flow.pendingMark = []

variable {settings : Settings} {start flow : Flow} {before : List Text} {word piece : Text}
  {glue : Bool}

/-! ## (1) One piece of a word -/

/-- A word that moves leaves the line before it behind and starts the next line. -/
theorem moveWord_lines {last : Line} {c : Char} (hcurrent : flow.current = last ++ ' ' :: word)
    (hstart : flow.wordStart = last.length + 1) (hc : last.getLast? = some c)
    (hblank : Text.isFlowBlank c = false) :
    flow.moveWord.page.lines = flow.page.lines ++ [last] ∧
      flow.moveWord.current = flow.continuation ++ word := by
  constructor
  · show flow.page.lines ++ [Text.trimRight Text.isSpace (flow.current.take flow.wordStart)] = _
    rw [hcurrent, hstart, Text.take_append_space, Text.trimRight_append_space hc hblank]
  · show flow.continuation ++ flow.current.drop flow.wordStart = _
    rw [hcurrent, hstart, Text.drop_append_space]

/-- A glued piece leaves a line alone that is not too wide. -/
theorem Filled.glued_stay (h : Filled settings start flow before word)
    (hstay : (flow.place piece).fitWord settings = flow.place piece)
    (hpiece : ∀ c ∈ piece, Text.isFlowBlank c = false) (hne : piece ≠ [])
    (hlast : ∃ above, flow.page.lines = start.page.lines ++ above ∧
      Text.LastWord settings.maxWidth (start.firstStart settings) (start.nextStart settings) before
        (word ++ piece) above (flow.current ++ piece) flow.wordStart flow.wordMovable) :
    Filled settings start ((flow.place piece).fitWord settings) before (word ++ piece) := by
  rw [hstay]
  exact ⟨hlast, holdsWord_place (Nat.le_of_lt h.holds.wordStart_lt) hne hpiece, h.continuation,
    h.pendingMark⟩

/-- **A glued piece** continues the last word. -/
theorem Filled.glued (h : Filled settings start flow before word) (hne : piece ≠ [])
    (hpiece : ∀ c ∈ piece, Text.isFlowBlank c = false) :
    Filled settings start (flow.addWord settings piece true) before (word ++ piece) := by
  obtain ⟨above, hlines, hlast⟩ := h.lines
  have hadd : flow.addWord settings piece true = (flow.place piece).fitWord settings := by
    rw [addWord_glued h.holds.hasWords, unmarked_of_nil h.pendingMark, h.pendingMark,
      List.nil_append]
  rw [hadd]
  cases hmovable : flow.wordMovable with
  | false =>
    -- The word starts its line, so it stays there however long it gets.
    rw [hmovable] at hlast
    refine h.glued_stay (fitWord_alone hmovable) hpiece hne ⟨above, hlines, ?_⟩
    rw [hmovable]
    exact hlast.extend_alone
  | true =>
    -- The word stands beside another one: whether it stays is decided by its whole length.
    rw [hmovable] at hlast
    obtain ⟨last, hwrap, hcurrent, hstart, c, hc, hblank⟩ := hlast.beside_inv
    have hline : (flow.place piece).current = last ++ ' ' :: (word ++ piece) := by
      show flow.current ++ piece = _
      rw [hcurrent, List.append_assoc, List.cons_append]
    by_cases hfit : Text.Fits settings.maxWidth last (word ++ piece)
    · have hwidth : (Text.width (flow.place piece).current : Int) ≤ settings.maxWidth := by
        rw [hline, Text.width_append_space]
        exact_mod_cast hfit
      refine h.glued_stay (fitWord_stay hwidth) hpiece hne ⟨above, hlines, ?_⟩
      have hcurrent' : flow.current ++ piece = last ++ ' ' :: (word ++ piece) := hline
      rw [hmovable, hcurrent', hstart]
      exact .beside above last hwrap hfit ⟨c, hc, hblank⟩
    · -- The whole word moves, and its earlier pieces leave the line it stood on.
      have hwidth : settings.maxWidth < (Text.width (flow.place piece).current : Int) := by
        rw [hline, Text.width_append_space]
        unfold Text.Fits at hfit
        push_cast
        omega
      have hplaced : (flow.place piece).HoldsWord :=
        holdsWord_place (Nat.le_of_lt h.holds.wordStart_lt) hne hpiece
      obtain ⟨hbroken, hmoved⟩ := moveWord_lines hline hstart hc hblank
      rw [fitWord_move hwidth hmovable]
      refine ⟨⟨above ++ [last], ?_, ?_⟩, hplaced.moveWord, h.continuation, h.pendingMark⟩
      · rw [hbroken]
        show flow.page.lines ++ [last] = _
        rw [hlines, List.append_assoc]
      · rw [hmoved]
        show Text.LastWord _ _ _ _ _ _ (flow.continuation ++ (word ++ piece))
          flow.continuation.length false
        rw [h.continuation]
        exact .below above last hwrap hfit

/-- **A fresh piece** starts the next word. -/
theorem Filled.fresh (h : Filled settings start flow before word) (hne : piece ≠ [])
    (hpiece : ∀ c ∈ piece, Text.isFlowBlank c = false) (hglue : (glue && flow.hasWords) = false) :
    Filled settings start (flow.addWord settings piece glue) (before ++ [word]) piece := by
  obtain ⟨above, hlines, hlast⟩ := h.lines
  obtain ⟨c, hc, hblank⟩ := h.holds.getLast
  have hwords := h.holds.hasWords
  have hwrap := hlast.lines_eq
  have hsep := separator_of_letter hc hblank
  have hholds : (flow.addWord settings piece glue).HoldsWord :=
    holdsWord_addWord (Or.inl h.pendingMark) (fun _ => h.holds) hne hpiece
  have hadd : flow.addWord settings piece glue =
      ((flow.makeRoom settings piece).startWord).place piece := by
    rw [addWord_fresh hglue, unmarked_of_nil h.pendingMark, beginLine_of_hasWords hwords,
      h.pendingMark, List.nil_append]
  rw [hadd] at hholds ⊢
  by_cases hfit : Text.Fits settings.maxWidth flow.current piece
  · have hroom : flow.makeRoom settings piece = { flow with current := flow.current ++ [' '] } := by
      rw [← hsep]
      refine makeRoom_stay (Or.inl ?_)
      rw [hsep]
      exact hfit
    rw [hroom] at hholds ⊢
    refine ⟨⟨above, hlines, ?_⟩, hholds, h.continuation, h.pendingMark⟩
    show Text.LastWord _ _ _ _ _ _ ((flow.current ++ [' ']) ++ piece)
      (flow.current ++ [' ']).length flow.hasWords
    rw [List.append_assoc, List.length_append, hwords]
    exact .beside above flow.current hwrap hfit ⟨c, hc, hblank⟩
  · -- There is no room: the line is complete, and the word starts the next one.
    have hroom : flow.makeRoom settings piece =
        { flow.commit with current := flow.continuation } := by
      refine makeRoom_wrap ?_ hwords
      rw [hsep, List.length_singleton]
      unfold Text.Fits at hfit
      omega
    rw [hroom] at hholds ⊢
    refine ⟨⟨above ++ [flow.current], ?_, ?_⟩, hholds, h.continuation, h.pendingMark⟩
    · show flow.page.lines ++ [flow.current] = _
      rw [hlines, List.append_assoc]
    · show Text.LastWord _ _ _ _ _ _ (flow.continuation ++ piece) flow.continuation.length false
      rw [h.continuation]
      exact .below above flow.current hwrap hfit

/-- The words laid out since the state `start`, while the line it left behind holds no word. -/
structure Unfilled (settings : Settings) (start flow : Flow) : Prop where
  hasWords : flow.hasWords = false
  lines : flow.page.lines = start.page.lines
  current : flow.current = start.current
  continuation : flow.continuation = start.continuation
  indent : flow.indent settings = start.indent settings
  pendingMark : flow.pendingMark = []
  /-- The line is empty or ends in a space. -/
  isStart : start.current = [] ∨ start.current.getLast? = some ' '

/-- **The first piece** starts the first word. -/
theorem Unfilled.first (h : Unfilled settings start flow) (hne : piece ≠ [])
    (hpiece : ∀ c ∈ piece, Text.isFlowBlank c = false) :
    Filled settings start (flow.addWord settings piece glue) [] piece := by
  have hglue : (glue && flow.hasWords) = false := by simp [h.hasWords]
  have hholds : (flow.addWord settings piece glue).HoldsWord :=
    holdsWord_addWord (Or.inl h.pendingMark) (fun hw => by simp [h.hasWords] at hw) hne hpiece
  have hadd : flow.addWord settings piece glue =
      (((flow.beginLine settings).makeRoom settings piece).startWord).place piece := by
    rw [addWord_fresh hglue, unmarked_of_nil h.pendingMark, h.pendingMark, List.nil_append]
  rw [hadd] at hholds ⊢
  -- The line begins with the indentation, or with the marker that stands there already.
  have hbegin : flow.beginLine settings =
      { flow with
        current := start.firstStart settings
        continuation := start.nextStart settings } := by
    unfold firstStart nextStart
    by_cases hnil : start.current = []
    · rw [if_pos hnil, if_pos hnil, ← h.indent]
      exact beginLine_of_empty h.hasWords (h.current.trans hnil)
    · rw [if_neg hnil, if_neg hnil, ← h.current, ← h.continuation]
      exact beginLine_of_begun (h.current ▸ hnil)
  have hfirst : (start.firstStart settings).IsStart := by
    unfold firstStart
    split
    · exact BlockContext.isStart_indent _ _
    · exact h.isStart
  have hsep : (flow.beginLine settings).separator = [] := by
    rw [hbegin]
    rcases hfirst with hnil | hspace
    · exact separator_of_nil hnil
    · exact separator_of_space hspace
  have hroom : (flow.beginLine settings).makeRoom settings piece = flow.beginLine settings := by
    rw [makeRoom_stay (Or.inr ?_), hsep, List.append_nil]
    rw [hbegin]
    exact h.hasWords
  -- Behind a space there is room for any word, so the first one stays on the line.
  rw [hroom, hbegin] at hholds ⊢
  refine ⟨⟨[], ?_, ?_⟩, hholds, rfl, h.pendingMark⟩
  · rw [List.append_nil]
    exact h.lines
  · show Text.LastWord _ _ _ _ _ _ (start.firstStart settings ++ piece)
      (start.firstStart settings).length flow.hasWords
    rw [h.hasWords]
    exact .first rfl

/-! ## (2) A piece of text -/

/-- What is laid out since the state `start`: the given words. -/
def Laid (settings : Settings) (start flow : Flow) (words : List Text) : Prop :=
  (words = [] ∧ Unfilled settings start flow) ∨
    ∃ before word, words = before ++ [word] ∧ Filled settings start flow before word

/-- One more word. -/
theorem Laid.addWord {words : List Text} (h : Laid settings start flow words) (hne : piece ≠ [])
    (hpiece : ∀ c ∈ piece, Text.isFlowBlank c = false) (hglue : (glue && flow.hasWords) = false) :
    Laid settings start (flow.addWord settings piece glue) (words ++ [piece]) := by
  rcases h with ⟨rfl, h⟩ | ⟨before, word, rfl, h⟩
  · exact Or.inr ⟨[], piece, rfl, h.first hne hpiece⟩
  · exact Or.inr ⟨before ++ [word], piece, rfl, h.fresh hne hpiece hglue⟩

/-- More words. -/
theorem Laid.addWords {words : List Text} (pieces : List Text) (h : Laid settings start flow words)
    (hne : ∀ w ∈ pieces, w ≠ []) (hletter : ∀ w ∈ pieces, ∀ c ∈ w, Text.isFlowBlank c = false) :
    Laid settings start (flow.addWords settings pieces) (words ++ pieces) := by
  induction pieces generalizing flow words with
  | nil => rwa [List.append_nil]
  | cons piece pieces ih =>
    have hfirst : Laid settings start (flow.addWord settings piece) (words ++ [piece]) :=
      h.addWord (hne piece List.mem_cons_self) (hletter piece List.mem_cons_self) rfl
    rw [List.append_cons]
    exact ih hfirst (fun w hw => hne w (List.mem_cons_of_mem _ hw))
      fun w hw => hletter w (List.mem_cons_of_mem _ hw)

/-- What is laid out since the state `start`: the words of the given text, the last of which can go
on if the text does not end in a blank. -/
structure Holds (settings : Settings) (start flow : Flow) (s : Text) : Prop where
  laid : Laid settings start flow (Text.words Text.isFlowBlank s)
  glue : Text.words Text.isFlowBlank s ≠ [] → flow.glue = !endsBlank s

/-- Bookkeeping does not touch what is laid out. -/
theorem Laid.quiet {words : List Text} (h : Laid settings start flow words) (styles : Stack)
    (notices : List Notice) (anchors : List (Text × Int)) (headingText : Text) (glue : Bool) :
    Laid settings start
      { flow with
        styles, notices, glue
        page := { flow.page with anchors }
        context := { flow.context with headingText } } words := by
  rcases h with ⟨hnil, h⟩ | ⟨before, word, hwords, h⟩
  · exact Or.inl ⟨hnil, h.hasWords, h.lines, h.current, h.continuation, h.indent, h.pendingMark,
      h.isStart⟩
  · exact Or.inr ⟨before, word, hwords, h.lines, h.holds, h.continuation, h.pendingMark⟩

/-- A text that starts blank is empty or has a blank first. -/
theorem startsBlank_of_head {s : Text} (h : startsBlank s = true) :
    ∀ c, s.head? = some c → Text.isFlowBlank c = true := by
  intro c hc
  simpa [startsBlank, hc] using h

/-- A text that ends blank is empty or has a blank last. -/
theorem endsBlank_of_getLast {s : Text} (h : endsBlank s = true) :
    ∀ c, s.getLast? = some c → Text.isFlowBlank c = true := by
  intro c hc
  simpa [endsBlank, hc] using h

/-- A text that does not start blank has a letter first. -/
theorem exists_head_of_startsBlank {s : Text} (hne : s ≠ []) (h : startsBlank s = false) :
    ∃ c, s.head? = some c ∧ Text.isFlowBlank c = false := by
  cases s with
  | nil => exact absurd rfl hne
  | cons c s => exact ⟨c, rfl, h⟩

/-- A text that does not end blank has a letter last. -/
theorem exists_getLast_of_endsBlank {s : Text} (hne : s ≠ []) (h : endsBlank s = false) :
    ∃ c, s.getLast? = some c ∧ Text.isFlowBlank c = false := by
  refine ⟨s.getLast hne, List.getLast?_eq_some_getLast hne, ?_⟩
  simpa [endsBlank, List.getLast?_eq_some_getLast hne] using h

/-- What a text ends in does not depend on what stands before it. -/
theorem endsBlank_append {s t : Text} (hne : t ≠ []) : endsBlank (s ++ t) = endsBlank t := by
  simp [endsBlank, List.getLast?_append, List.getLast?_eq_some_getLast hne]

/-- A text that has no words, but characters, ends in a blank. -/
theorem endsBlank_of_words_eq_nil {t : Text} (hne : t ≠ [])
    (h : Text.words Text.isFlowBlank t = []) : endsBlank t = true := by
  have hblank := Text.words_eq_nil_iff.1 h
  simp [endsBlank, List.getLast?_eq_some_getLast hne, hblank _ (List.getLast_mem hne)]

/-- A text that starts fresh adds its words to those before it. -/
theorem Holds.words_append {s t : Text} (h : Holds settings start flow s)
    (hglue : ((flow.glue && !startsBlank t) && flow.hasWords) = false) :
    Text.words Text.isFlowBlank (s ++ t) =
      Text.words Text.isFlowBlank s ++ Text.words Text.isFlowBlank t := by
  by_cases hs : endsBlank s = true
  · exact Text.words_append_of_getLast (endsBlank_of_getLast hs) t
  · by_cases ht : startsBlank t = true
    · exact Text.words_append_of_head (startsBlank_of_head ht) s
    · -- No blank stands between the texts, so there was no word before.
      by_cases hwords : Text.words Text.isFlowBlank s = []
      · exact Text.words_append_of_getLast
          (fun c hc => Text.words_eq_nil_iff.1 hwords c (List.mem_of_getLast? hc)) t
      · rcases h.laid with ⟨hnil, -⟩ | ⟨before, word, -, hfilled⟩
        · exact absurd hnil hwords
        · have hends : endsBlank s = false := by simpa using hs
          have hstarts : startsBlank t = false := by simpa using ht
          simp [h.glue hwords, hends, hstarts, hfilled.holds.hasWords] at hglue

/-- The first piece of a text that goes on continues the last word before it if no blank stands
between them, and is a word of its own otherwise. The words with it are those that the other pieces
of the text go on from. -/
theorem Holds.firstPiece {s t : Text} {pieces : List Text} (h : Holds settings start flow s)
    (ht : t ≠ []) (hwords : Text.words Text.isFlowBlank t = piece :: pieces) (hpiece : piece ≠ [])
    (hletter : ∀ c ∈ piece, Text.isFlowBlank c = false) :
    ∃ words,
      Laid settings start (flow.addWord settings piece (flow.glue && !startsBlank t)) words ∧
        Text.words Text.isFlowBlank (s ++ t) = words ++ pieces := by
  by_cases hglue : ((flow.glue && !startsBlank t) && flow.hasWords) = true
  · -- The piece is glued to a word, so there is one, and the text before ends in a letter.
    simp only [Bool.and_eq_true, Bool.not_eq_true'] at hglue
    obtain ⟨⟨hglued, hstarts⟩, hhas⟩ := hglue
    rcases h.laid with ⟨-, hunfilled⟩ | ⟨before, word, hs, hfilled⟩
    · simp [hunfilled.hasWords] at hhas
    · have hsne : Text.words Text.isFlowBlank s ≠ [] := by simp [hs]
      have hends : endsBlank s = false := by simpa [hglued] using h.glue hsne
      have hs0 : s ≠ [] := by
        rintro rfl
        simp at hs
      have happend := Text.words_append_glue (exists_getLast_of_endsBlank hs0 hends)
        (exists_head_of_startsBlank ht hstarts) hs hwords
      refine ⟨before ++ [word ++ piece], ?_, ?_⟩
      · rw [hglued, hstarts]
        exact Or.inr ⟨before, word ++ piece, rfl, hfilled.glued hpiece hletter⟩
      · rw [happend, List.append_assoc]
        rfl
  · have hglue' : ((flow.glue && !startsBlank t) && flow.hasWords) = false := by
      simpa only [Bool.not_eq_true] using hglue
    refine ⟨Text.words Text.isFlowBlank s ++ [piece], h.laid.addWord hpiece hletter hglue', ?_⟩
    rw [h.words_append hglue', hwords, List.append_assoc]
    rfl

/-- **More text.** Its words are laid out behind those before it, and its first one continues the
last word before it if no blank stands between them. -/
theorem Holds.addText {s : Text} (h : Holds settings start flow s) (t : Text) :
    Holds settings start (flow.addText settings t) (s ++ t) := by
  by_cases ht : t = []
  · subst ht
    rw [List.append_nil]
    exact h
  · have hne : t.isEmpty = false := by simpa using ht
    unfold Flow.addText
    rw [hne, if_neg Bool.false_ne_true]
    cases hwords : Text.words Text.isFlowBlank t with
    | nil =>
      -- The text is all blank: it adds no word, and no later piece is glued across it.
      have hblank := Text.words_eq_nil_iff.1 hwords
      have happend : Text.words Text.isFlowBlank (s ++ t) = Text.words Text.isFlowBlank s := by
        rw [Text.words_append_of_head fun c hc => hblank c (List.mem_of_mem_head? hc), hwords,
          List.append_nil]
      refine ⟨?_, fun _ => ?_⟩
      · rw [happend]
        exact h.laid.quiet flow.styles flow.notices flow.page.anchors flow.context.headingText false
      · rw [endsBlank_append ht, endsBlank_of_words_eq_nil ht hwords]
        rfl
    | cons piece pieces =>
      have hne : ∀ w ∈ piece :: pieces, w ≠ [] := by
        intro w hw
        exact Text.ne_nil_of_mem_words (hwords ▸ hw)
      have hletter : ∀ w ∈ piece :: pieces, ∀ c ∈ w, Text.isFlowBlank c = false := by
        intro w hw c hc
        exact Text.letter_of_mem_words (hwords ▸ hw) hc
      obtain ⟨words, hlaid, happend⟩ := h.firstPiece ht hwords (hne piece List.mem_cons_self)
        (hletter piece List.mem_cons_self)
      have hall := hlaid.addWords pieces (fun w hw => hne w (List.mem_cons_of_mem _ hw))
        fun w hw => hletter w (List.mem_cons_of_mem _ hw)
      refine ⟨?_, fun _ => ?_⟩
      · rw [happend]
        exact hall.quiet _ _ _ _ (!endsBlank t)
      · rw [endsBlank_append ht]

/-! ## (3) Tokens -/

/-- **One token more.** Its text is laid out behind the text before it. -/
theorem Holds.feed {s : Text} (h : Holds settings start flow s) (hflow : flow.TakesWords)
    {token : Token} (htoken : token.IsInline settings) :
    Holds settings start (flow.feed settings token) (s ++ token.content) := by
  by_cases htag : ∀ t, token ≠ .text t
  · -- A tag leaves the glue alone, so a word can go on behind it.
    obtain ⟨anchors, notices, hfeed⟩ := feed_tag hflow htoken htag
    rw [hfeed, Token.content_eq_nil htag, List.append_nil]
    exact ⟨h.laid.quiet _ _ _ flow.context.headingText flow.glue, h.glue⟩
  · obtain ⟨t, rfl⟩ : ∃ t, token = .text t := by simpa using htag
    rw [feed_text hflow]
    obtain ⟨headingText, hcollect⟩ := exists_collectHeading flow t
    rw [hcollect]
    have hheading : Holds settings start
        { flow with context := { flow.context with headingText } } s :=
      ⟨h.laid.quiet flow.styles flow.notices flow.page.anchors headingText flow.glue, h.glue⟩
    exact hheading.addText t

/-- Tokens lay out their texts. -/
theorem Holds.feedAll {s : Text} (tokens : List Token) (h : Holds settings start flow s)
    (hflow : flow.TakesWords) (htokens : ∀ token ∈ tokens, token.IsInline settings) :
    Holds settings start (flow.feedAll settings tokens) (s ++ Token.contents tokens) := by
  induction tokens generalizing flow s with
  | nil =>
    rw [Token.contents_nil, List.append_nil]
    exact h
  | cons token tokens ih =>
    have htoken := htokens token List.mem_cons_self
    rw [Token.contents_cons, ← List.append_assoc]
    exact ih (h.feed hflow htoken) (hflow.feed htoken)
      fun other hother => htokens other (List.mem_cons_of_mem _ hother)

/-- The lines of the words laid out. -/
theorem Laid.lines_eq {words : List Text} (h : Laid settings start flow words) :
    flow.page.lines ++ [flow.current] =
      start.page.lines ++
        if words = [] then [start.current]
        else Text.wrap settings.maxWidth (start.firstStart settings) (start.nextStart settings)
          words := by
  rcases h with ⟨rfl, h⟩ | ⟨before, word, rfl, h⟩
  · rw [if_pos rfl, h.lines, h.current]
  · obtain ⟨above, hlines, hlast⟩ := h.lines
    rw [if_neg (by simp), hlast.lines_eq, hlines, List.append_assoc]

/-- **Flow text is wrapped greedily, blind to inline markup.** Take any state that tokens lead to in
which text goes to the lines and the line holds no word: it is empty, or the indentation with a
marker. After any text within inline tags, the lines are those of the words of the joined text,
wrapped greedily behind what the line held. Where the tags stand, and how they cut the words, makes
no difference. -/
theorem feedAll_eq_wrap (settings : Settings) (before tokens : List Token)
    (hflow : (feedAll {} settings before).TakesWords)
    (hmark : (feedAll {} settings before).pendingMark = [])
    (hempty : (feedAll {} settings before).hasWords = false)
    (htokens : ∀ token ∈ tokens, token.IsInline settings) :
    let start := feedAll {} settings before
    let result := start.feedAll settings tokens
    let words := Text.words Text.isFlowBlank (Token.contents tokens)
    (start.current = [] ∨ start.IsBare settings) ∧
      result.page.lines ++ [result.current] =
        start.page.lines ++
          (if words = [] then [start.current]
          else Text.wrap settings.maxWidth (start.firstStart settings) (start.nextStart settings)
            words) ∧
      ∀ others : List Token, (∀ token ∈ others, token.IsInline settings) →
        Token.contents others = Token.contents tokens →
        (start.feedAll settings others).page.lines = result.page.lines ∧
          (start.feedAll settings others).current = result.current := by
  intro start result words
  -- Outside preformatted text, a line that is begun without a word holds a marker.
  have hbegun : start.Begun settings := begun_feedAll settings before
  have hbare : start.current = [] ∨ start.IsBare settings := by
    by_cases hnil : start.current = []
    · exact Or.inl hnil
    · refine Or.inr ((hbegun.bare hempty hnil).resolve_left ?_)
      rintro ⟨hpre, -⟩
      exact absurd hpre (by rw [hflow.inPre]; exact Bool.false_ne_true)
  have hstart : start.current = [] ∨ start.current.getLast? = some ' ' := by
    by_cases hnil : start.current = []
    · exact Or.inl hnil
    · exact Or.inr ((hbare.resolve_left hnil).getLast hnil)
  -- Both streams are followed from the same state, where nothing is laid out yet.
  have hholds : Holds settings start start [] :=
    ⟨Or.inl ⟨rfl, hempty, rfl, rfl, rfl, rfl, hmark, hstart⟩, fun h => absurd rfl h⟩
  have hlines : ∀ others : List Token, (∀ token ∈ others, token.IsInline settings) →
      (start.feedAll settings others).page.lines ++ [(start.feedAll settings others).current] =
        start.page.lines ++
          if Text.words Text.isFlowBlank (Token.contents others) = [] then [start.current]
          else Text.wrap settings.maxWidth (start.firstStart settings) (start.nextStart settings)
            (Text.words Text.isFlowBlank (Token.contents others)) :=
    fun others hothers => (hholds.feedAll others hflow hothers).laid.lines_eq
  refine ⟨hbare, hlines tokens htokens, fun others hothers hcontents => ?_⟩
  have hsame := hlines others hothers
  rw [hcontents] at hsame
  exact List.append_singleton_inj.1 (hsame.trans (hlines tokens htokens).symm)

/-- A word cut by tags in an item of a list is too wide for the line of the marker and the first
word, and stands as a whole on the next line. -/
theorem feedAll_eq_wrap_item :
    let settings : Settings := { maxWidth := 12 }
    let item : List Token := [.opening "ul".toList [], .opening "li".toList []]
    let tokens : List Token :=
      [.text "an un".toList, .opening "i".toList [], .text "believ".toList,
        .closing "i".toList, .text "able \t one".toList]
    let start := feedAll {} settings item
    let result := start.feedAll settings tokens
    (start.TakesWords ∧ start.pendingMark = [] ∧ start.hasWords = false ∧
        ∀ token ∈ tokens, token.IsInline settings) ∧
      result.page.lines ++ [result.current] =
        ["  • an".toList, "    unbelievable".toList, "    one".toList] := by
  intro settings item tokens start result
  have hflow : start.TakesWords := ⟨by decide, by decide, by decide, by decide, by decide⟩
  have hmark : start.pendingMark = [] := by decide
  have hempty : start.hasWords = false := by decide
  have htokens : ∀ token ∈ tokens, token.IsInline settings := by decide
  refine ⟨⟨hflow, hmark, hempty, htokens⟩, ?_⟩
  rw [(feedAll_eq_wrap settings item tokens hflow hmark hempty htokens).2.1]
  decide +kernel

end Flow

end ChapterLayout
