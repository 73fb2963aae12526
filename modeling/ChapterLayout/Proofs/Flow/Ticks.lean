import Mathlib.Algebra.GroupWithZero.Nat
import ChapterLayout.Proofs.Flow.HeadingStart
import ChapterLayout.Proofs.Text.LineWords

/-! # Backticks in lines

The backticks of the lines are those of the words that are laid out and of the lines that are put on
the page as they are: line breaks, indentations and the markers of items neither add nor drop one.

* **`Text.ticks`**, **`Flow.ticks`**, **`Token.ticks`** — the backticks of a text, of the lines of a
  state, and of what a token puts into the lines;
* **`Flow.AddsTicks`** — whether a step adds a number of backticks to the lines;
* **`addsTicks_newLine`**, **`addsTicks_item`**, **`addsTicks_line`** — the end of a line and the
  start of an item add none, and a line of its own adds those it has;
* **`addsTicks_addText`** — a text adds its own. -/

namespace ChapterLayout

/-! ## (1) Texts -/

namespace Text

variable {s t : Text}

/-- The number of backticks in a text. -/
def ticks (s : Text) : Nat := s.count '\x60'

/-- An empty text holds no backticks. -/
@[simp] theorem ticks_nil : ticks [] = 0 := rfl

/-- The backticks of two texts are those of the first and those of the second. -/
@[simp] theorem ticks_append (s t : Text) : ticks (s ++ t) = ticks s + ticks t := List.count_append

/-- Spaces hold no backticks. -/
@[simp] theorem ticks_replicate_space (n : Nat) : ticks (List.replicate n ' ') = 0 :=
  List.count_eq_zero.2 fun h => absurd (List.eq_of_mem_replicate h) (by decide)

/-- Leaving out characters that are no backticks. -/
theorem ticks_filter {p : Char → Bool} (h : p '\x60' = true) (s : Text) :
    ticks (s.filter p) = ticks s := List.count_filter h

/-- The words of a text have its backticks. -/
theorem ticks_words {p : Char → Bool} (h : p '\x60' = false) (s : Text) :
    ticks (words p s).flatten = ticks s := by
  rw [words_flatten]
  exact ticks_filter (by simp [h]) s

/-- Spaces at the end of a text hold no backtick. -/
theorem ticks_trimRight (s : Text) : ticks (trimRight isSpace s) = ticks s := by
  obtain ⟨blanks, hs, hblanks⟩ := exists_trimRight_append s
  have hnone : ticks blanks = 0 :=
    List.count_eq_zero.2 fun h => absurd (hblanks _ h) (by decide)
  conv_rhs => rw [hs, ticks_append, hnone, Nat.add_zero]

/-- A squeezed text keeps its backticks. -/
theorem ticks_squeeze (s : Text) : ticks (squeeze s) = ticks s := by
  have hwords : words isBlank (squeeze s) = words isBlank s := by
    have hsingle : ∀ w ∈ words isBlank s, words isBlank w = [w] := fun w hw =>
      words_of_letters (ne_nil_of_mem_words hw) fun c hc => letter_of_mem_words hw hc
    rw [squeeze, words_joined rfl, List.flatMap_congr hsingle, List.flatMap_singleton']
  have hblank : isBlank '\x60' = false := by decide
  rw [← ticks_words hblank (squeeze s), hwords, ticks_words hblank]

end Text

namespace BlockContext

/-- The indentation holds no backtick. -/
theorem ticks_indent (context : BlockContext) (typography : Typography) :
    Text.ticks (context.indent typography) = 0 := by
  have hbars : ∀ n : Nat, Text.ticks (List.replicate n quoteBar).flatten = 0 := by
    intro n
    induction n with
    | zero => rfl
    | succ n ih =>
      rw [List.replicate_succ, List.flatten_cons, Text.ticks_append, ih]
      rfl
  unfold indent
  split_ifs <;> simp [Text.spaces, hbars]

end BlockContext

/-- The marker of an item holds no backtick. -/
theorem IsMarker.ticks {lists : List ListLevel} {marker : Text} (h : IsMarker lists marker) :
    Text.ticks marker = 0 := by
  cases h with
  | outside => rfl
  | bullet level outer => rfl
  | number level outer n =>
    have hdigits : Text.ticks (Text.ofNat n) = 0 := List.count_eq_zero.2 fun hmem =>
      absurd (Nat.isDigit_of_mem_toDigits (by decide) (by decide) hmem) (by decide)
    rw [Text.ticks_append, hdigits]
    rfl

/-- The backticks that a token puts into the lines: those of a text, and those of the description of
an image that has a source. -/
def Token.ticks : Token → Nat
  | .text s => Text.ticks s
  | .empty name attributes =>
    if name == "img".toList && (Attribute.nonempty? attributes "src".toList).isSome then
      Text.ticks ((Attribute.find? attributes "alt".toList).getD [])
    else 0
  | _ => 0

namespace Flow

variable {settings : Settings} {flow : Flow} {f g : Flow → Flow} {m n : Nat} {s word : Text}
  {token : Token} {tokens : List Token}

/-! ## (2) Steps -/

/-- The label of an image has the backticks of its text. -/
theorem ticks_imageLabel (alt : Text) : Text.ticks (imageLabel alt) = Text.ticks alt := by
  have hstart : Text.ticks "[image: ".toList = 0 := by decide
  have hend : Text.ticks [']'] = 0 := by decide
  unfold imageLabel
  split
  · rename_i hnil
    rw [List.isEmpty_iff.1 hnil]
    rfl
  · rw [Text.ticks_append, Text.ticks_append, hstart, hend, Nat.zero_add, Nat.add_zero]

/-- The backticks of the lines and of the line that is being filled. -/
def ticks (flow : Flow) : Nat := Text.ticks flow.page.lines.flatten + Text.ticks flow.current

/-- Whether no mark is waiting for a word, and a wrapped line starts without one. -/
structure Unticked (flow : Flow) : Prop where
  pendingMark : flow.pendingMark = []
  continuation : Text.ticks flow.continuation = 0

/-- Whether a step adds a number of backticks to the lines, and leaves none waiting. -/
def AddsTicks (n : Nat) (f : Flow → Flow) : Prop :=
  ∀ flow : Flow, flow.Unticked → (f flow).Unticked ∧ (f flow).ticks = flow.ticks + n

/-- Two steps, one after the other, add the backticks of both. -/
theorem AddsTicks.comp (hg : AddsTicks n g) (hf : AddsTicks m f) :
    AddsTicks (m + n) fun flow => g (f flow) := by
  intro flow h
  obtain ⟨hbetween, hfirst⟩ := hf flow h
  obtain ⟨hend, hsecond⟩ := hg (f flow) hbetween
  exact ⟨hend, by rw [hsecond, hfirst, Nat.add_assoc]⟩

/-- Steps that add nothing one after the other. -/
theorem AddsTicks.comp_zero (hg : AddsTicks 0 g) (hf : AddsTicks 0 f) :
    AddsTicks 0 fun flow => g (f flow) := hg.comp hf

/-- A step that depends on the state adds as many backticks as each of its cases. -/
theorem AddsTicks.ite {p : Flow → Prop} [DecidablePred p] (hf : AddsTicks n f)
    (hg : AddsTicks n g) : AddsTicks n fun flow => if p flow then f flow else g flow := by
  intro flow h
  dsimp only
  split
  · exact hf flow h
  · exact hg flow h

/-- Whether two states have the same lines, and the same marks for words. -/
structure KeepsLines (a b : Flow) : Prop where
  lines : b.page.lines = a.page.lines
  current : b.current = a.current
  continuation : b.continuation = a.continuation
  hasWords : b.hasWords = a.hasWords
  pendingMark : b.pendingMark = a.pendingMark
  codeDepth : b.codeDepth = a.codeDepth

/-- A step that touches neither the lines nor what is waiting. -/
theorem addsTicks_of_keepsLines (h : ∀ flow, KeepsLines flow (f flow)) : AddsTicks 0 f := by
  intro flow hflow
  have hsame := h flow
  refine ⟨⟨hsame.pendingMark.trans hflow.pendingMark, ?_⟩, ?_⟩
  · rw [hsame.continuation]
    exact hflow.continuation
  · rw [ticks, hsame.lines, hsame.current]
    rfl

/-- Doing nothing adds no backticks. -/
theorem addsTicks_id : AddsTicks 0 fun flow => flow :=
  addsTicks_of_keepsLines fun _ => ⟨rfl, rfl, rfl, rfl, rfl, rfl⟩

/-- A committed line keeps its backticks. -/
theorem ticks_commit (flow : Flow) : flow.commit.ticks = flow.ticks := by
  show Text.ticks (flow.page.lines ++ [flow.current]).flatten + 0 = _
  rw [List.flatten_append, Text.ticks_append, List.flatten_singleton]
  rfl

/-- The end of a line keeps the number of backticks. -/
theorem ticks_newLine (flow : Flow) : flow.newLine.ticks = flow.ticks := by
  by_cases hnil : flow.current = []
  · by_cases hend : flow.endsInText = true
    · rw [newLine_of_endsInText hnil hend]
      show Text.ticks (flow.page.lines ++ [[]]).flatten + Text.ticks flow.current = _
      rw [List.flatten_append, Text.ticks_append]
      rfl
    · rw [newLine_of_not_endsInText hnil (by simpa using hend)]
      rfl
  · rw [newLine_of_begun hnil]
    exact ticks_commit flow

/-- The end of a line adds no backticks. -/
theorem addsTicks_newLine : AddsTicks 0 newLine := fun flow h =>
  ⟨⟨(newLine_pendingMark flow).trans h.pendingMark, rfl⟩, ticks_newLine flow⟩

/-- Blank lines hold no backtick. -/
theorem addsTicks_addBlanks (n : Nat) : AddsTicks 0 (addBlanks · n) := by
  intro flow h
  have hblanks : Text.ticks (List.replicate n ([] : Line)).flatten = 0 := by
    rw [List.flatten_replicate_nil]
    rfl
  refine ⟨⟨h.pendingMark, h.continuation⟩, ?_⟩
  show Text.ticks (flow.page.lines ++ List.replicate n []).flatten + Text.ticks flow.current = _
  rw [List.flatten_append, Text.ticks_append, hblanks]
  rfl

/-- An item begins with its indentation and its marker, which hold no backtick. -/
theorem addsTicks_item : AddsTicks 0 fun flow => flow.newLine.atItem settings := by
  intro flow h
  have hindent : Text.ticks (flow.newLine.indent settings) = 0 :=
    BlockContext.ticks_indent _ _
  have hmarker : Text.ticks flow.newLine.context.nextMarker.1 = 0 :=
    flow.newLine.context.isMarker_nextMarker.ticks
  obtain ⟨⟨hmark, -⟩, hsame⟩ := addsTicks_newLine flow h
  obtain ⟨spans, hitem⟩ := exists_atItem settings flow.newLine
  dsimp only
  rw [hitem]
  refine ⟨⟨hmark, ?_⟩, ?_⟩
  · rw [Text.ticks_append, hindent, Text.ticks_replicate_space]
  · rw [← hsame, ticks, ticks, Text.ticks_append, hindent, hmarker, newLine_current]
    rfl

/-- A line of its own has its backticks. -/
theorem addsTicks_line {line : Flow → Text} (hline : ∀ flow, Text.ticks (line flow) = n)
    (group : Group) :
    AddsTicks n fun flow => flow.newLine.commitBlock (line flow.newLine) group := by
  intro flow h
  obtain ⟨⟨hmark, hcontinuation⟩, hsame⟩ := addsTicks_newLine flow h
  refine ⟨⟨hmark, hcontinuation⟩, ?_⟩
  rw [Nat.add_zero] at hsame
  rw [← hsame]
  show Text.ticks (flow.newLine.page.lines ++ [line flow.newLine]).flatten + 0 =
    Text.ticks flow.newLine.page.lines.flatten + Text.ticks flow.newLine.current + n
  rw [List.flatten_append, Text.ticks_append, List.flatten_singleton, newLine_current, hline]
  rfl

/-! ## (3) Words -/

/-- A word that moves keeps its backticks, and so does the line before it. -/
theorem addsTicks_fitWord : AddsTicks 0 (fitWord · settings) := by
  refine AddsTicks.ite addsTicks_id (f := fun flow => flow) (g := moveWord) fun flow h => ?_
  refine ⟨⟨h.pendingMark, h.continuation⟩, ?_⟩
  -- The line is cut where the word starts, and only blanks are dropped at the cut.
  show Text.ticks (flow.page.lines ++ [Text.trimRight Text.isSpace
    (flow.current.take flow.wordStart)]).flatten +
      Text.ticks (flow.continuation ++ flow.current.drop flow.wordStart) = _
  rw [List.flatten_append, Text.ticks_append, List.flatten_singleton, Text.ticks_trimRight,
    Text.ticks_append, h.continuation, Nat.zero_add, Nat.add_assoc, ← Text.ticks_append,
    List.take_append_drop]
  rfl

/-- A word that is placed adds its own backticks. -/
theorem addsTicks_place (word : Text) : AddsTicks (Text.ticks word) (place · word) := by
  intro flow h
  refine ⟨⟨h.pendingMark, h.continuation⟩, ?_⟩
  show Text.ticks flow.page.lines.flatten + Text.ticks (flow.current ++ word) = _
  rw [Text.ticks_append, ← Nat.add_assoc]
  rfl

/-- The start of a line holds no backtick. -/
theorem addsTicks_beginLine : AddsTicks 0 (beginLine · settings) := by
  intro flow h
  dsimp only
  obtain ⟨-, hnil, hbegin⟩ | hbegin := beginLine_cases settings flow
  · have hindent : Text.ticks (flow.indent settings) = 0 := BlockContext.ticks_indent _ _
    rw [hbegin]
    refine ⟨⟨h.pendingMark, hindent⟩, ?_⟩
    rw [ticks, ticks, hnil]
    exact congrArg (_ + ·) hindent
  · rw [hbegin]
    exact ⟨h, rfl⟩

/-- What separates a word from the line before it holds no backtick. -/
theorem addsTicks_makeRoom (word : Text) : AddsTicks 0 (makeRoom · settings word) := by
  intro flow h
  dsimp only
  obtain ⟨-, hroom⟩ | hroom := makeRoom_cases settings flow word
  · rw [hroom]
    refine ⟨⟨h.pendingMark, h.continuation⟩, ?_⟩
    rw [Nat.add_zero, ← ticks_commit flow]
    exact congrArg (_ + ·) h.continuation
  · have hseparator : Text.ticks flow.separator = 0 :=
      List.count_eq_zero.2 fun hmem => absurd (isSpace_of_mem_separator hmem) (by decide)
    rw [hroom]
    refine ⟨⟨h.pendingMark, h.continuation⟩, ?_⟩
    show Text.ticks flow.page.lines.flatten + Text.ticks (flow.current ++ flow.separator) = _
    rw [Text.ticks_append, hseparator]
    rfl

/-- **A word** adds its backticks. -/
theorem addsTicks_addWord (word : Text) (glue : Bool) :
    AddsTicks (Text.ticks word) (addWord · settings word glue) := by
  intro flow h
  have hstart : AddsTicks 0 startWord :=
    addsTicks_of_keepsLines fun _ => ⟨rfl, rfl, rfl, rfl, rfl, rfl⟩
  dsimp only
  -- A piece of a word is placed as it is, and a fresh word makes room first.
  by_cases hglue : (glue && flow.hasWords) = true
  · obtain ⟨rfl, hw⟩ := Bool.and_eq_true_iff.1 hglue
    rw [addWord_glued hw, unmarked_of_nil h.pendingMark, h.pendingMark]
    exact (addsTicks_fitWord.comp (addsTicks_place word)) flow h
  · have hfresh := ((addsTicks_place word).comp (hstart.comp_zero
      ((@addsTicks_makeRoom settings word).comp_zero
        (@addsTicks_beginLine settings)))) flow h
    rw [addWord_fresh (by simpa using hglue), unmarked_of_nil h.pendingMark, h.pendingMark]
    rwa [Nat.zero_add] at hfresh

/-- **A text** adds its backticks. -/
theorem addsTicks_addText (s : Text) : AddsTicks (Text.ticks s) (addText · settings s) := by
  have hwords : ∀ words : List Text,
      AddsTicks (Text.ticks words.flatten) (addWords · settings words) := by
    intro words
    induction words with
    | nil => exact addsTicks_id
    | cons w words ih =>
      rw [List.flatten_cons, Text.ticks_append]
      exact ih.comp (addsTicks_addWord w false)
  -- Noting whether the next text is glued changes no line.
  have hglue : ∀ glue, AddsTicks 0 fun flow => { flow with glue } := fun _ =>
    addsTicks_of_keepsLines fun _ => ⟨rfl, rfl, rfl, rfl, rfl, rfl⟩
  have hticks : Text.ticks s = Text.ticks (Text.words Text.isFlowBlank s).flatten :=
    (Text.ticks_words (by decide) s).symm
  intro flow h
  dsimp only
  unfold addText
  split
  · rename_i hnil
    rw [List.isEmpty_iff.1 hnil]
    exact ⟨h, rfl⟩
  -- The first word may be glued and the others are not, which makes no difference to the ticks.
  · cases hcut : Text.words Text.isFlowBlank s with
    | nil =>
      rw [hticks, hcut]
      exact hglue false flow h
    | cons w words =>
      rw [hticks, hcut, List.flatten_cons, Text.ticks_append]
      exact ((hglue _).comp ((hwords words).comp (addsTicks_addWord w _))) flow h

end Flow

end ChapterLayout
