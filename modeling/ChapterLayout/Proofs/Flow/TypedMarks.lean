import Mathlib.Data.List.DropRight
import Mathlib.Data.List.Lookmap
import ChapterLayout.Proofs.Flow.Acts

/-! # Marks that are typed

The marks of inline code could have been typed by the author: one before the first word of the
element and one behind its last word.

* **`Text.markStart`**, **`Text.markEnd`** — a text with a mark before its first word, and with one
  behind its last word;
* **`Token.markFirst`**, **`Token.markLast`** — tokens with a mark before the first word of all
  their texts, and with one behind the last;
* **`Token.CodeMarked`** — the same tokens with the marks of inline code typed into their texts, and
  with an element within a line in place of each element of inline code. -/

namespace ChapterLayout

/-! ## (1) Texts -/

namespace Text

variable {s w : Text} {ws : List Text}

/-- The text with a mark before its first word. -/
def markStart (s : Text) : Text := s.takeWhile isFlowBlank ++ '\x60' :: s.dropWhile isFlowBlank

/-- The text with a mark behind its last word. -/
def markEnd (s : Text) : Text := s.rdropWhile isFlowBlank ++ '\x60' :: s.rtakeWhile isFlowBlank

/-- Where the mark before the first word stands. -/
theorem exists_markStart (h : words isFlowBlank s ≠ []) : ∃ lead c rest,
    (∀ d ∈ lead, isFlowBlank d = true) ∧ isFlowBlank c = false ∧ s = lead ++ c :: rest ∧
      markStart s = lead ++ '\x60' :: c :: rest := by
  have hletters : s.dropWhile isFlowBlank ≠ [] := fun hnil =>
    h (words_eq_nil_iff.2 (List.dropWhile_eq_nil_iff.1 hnil))
  obtain ⟨c, rest, hrest⟩ := List.exists_cons_of_ne_nil hletters
  refine ⟨s.takeWhile isFlowBlank, c, rest, fun d hd => List.mem_takeWhile_imp hd, ?_, ?_, ?_⟩
  · simpa [hrest] using List.head_dropWhile_not isFlowBlank hletters
  · rw [← hrest, List.takeWhile_append_dropWhile]
  · rw [← hrest, markStart]

/-- Where the mark behind the last word stands. -/
theorem exists_markEnd (h : words isFlowBlank s ≠ []) : ∃ front c trail,
    (∀ d ∈ trail, isFlowBlank d = true) ∧ isFlowBlank c = false ∧
      s = (front ++ [c]) ++ trail ∧ markEnd s = (front ++ [c]) ++ '\x60' :: trail := by
  have hletters : s.rdropWhile isFlowBlank ≠ [] := fun hnil =>
    h (words_eq_nil_iff.2 (List.rdropWhile_eq_nil_iff.1 hnil))
  obtain ⟨front, c, hfront⟩ := (List.eq_nil_or_concat _).resolve_left hletters
  rw [List.concat_eq_append] at hfront
  refine ⟨front, c, s.rtakeWhile isFlowBlank, fun d hd => List.mem_rtakeWhile_imp hd, ?_, ?_, ?_⟩
  · simpa [hfront] using List.rdropWhile_last_not isFlowBlank s hletters
  · rw [← hfront, List.rdropWhile_append_rtakeWhile]
  · rw [← hfront, markEnd]

/-- **The words of a text with a mark before the first one.** -/
theorem words_markStart (h : words isFlowBlank s = w :: ws) :
    words isFlowBlank (markStart s) = ('\x60' :: w) :: ws := by
  obtain ⟨lead, c, rest, hlead, hc, hs, hmark⟩ := exists_markStart (s := s) (by simp [h])
  have hsplit : ∀ t, words isFlowBlank (lead ++ t) = words isFlowBlank t := by
    intro t
    rw [words_append_of_getLast fun d hd => hlead d (List.mem_of_getLast? hd),
      words_eq_nil_iff.2 hlead, List.nil_append]
  rw [hs, hsplit] at h
  rw [hmark, hsplit]
  exact words_cons_cons_letter rfl hc h

/-- **The words of a text with a mark behind the last one.** -/
theorem words_markEnd (h : words isFlowBlank s = ws ++ [w]) :
    words isFlowBlank (markEnd s) = ws ++ [w ++ ['\x60']] := by
  obtain ⟨front, c, trail, htrail, hc, hs, hmark⟩ := exists_markEnd (s := s) (by simp [h])
  have hsplit : ∀ t, words isFlowBlank (t ++ trail) = words isFlowBlank t := by
    intro t
    rw [words_append_of_head fun d hd => htrail d (List.mem_of_head? hd),
      words_eq_nil_iff.2 htrail, List.append_nil]
  rw [hs, hsplit] at h
  rw [hmark, List.append_cons, hsplit]
  exact words_append_glue ⟨c, List.getLast?_concat, hc⟩ ⟨'\x60', rfl, rfl⟩ h (words_singleton rfl)

/-- A mark before the first word leaves the blanks around the words alone. -/
theorem markStart_blank (h : words isFlowBlank s ≠ []) :
    Flow.startsBlank (markStart s) = Flow.startsBlank s ∧
      Flow.endsBlank (markStart s) = Flow.endsBlank s := by
  obtain ⟨lead, c, rest, hlead, hc, hs, hmark⟩ := exists_markStart h
  rw [hmark, hs]
  refine ⟨?_, ?_⟩
  · cases lead with
    | nil => exact hc.symm
    | cons d lead => rfl
  · simp [Flow.endsBlank]

/-- A mark behind the last word leaves the blanks around the words alone. -/
theorem markEnd_blank (h : words isFlowBlank s ≠ []) :
    Flow.startsBlank (markEnd s) = Flow.startsBlank s ∧
      Flow.endsBlank (markEnd s) = Flow.endsBlank s := by
  obtain ⟨front, c, trail, htrail, hc, hs, hmark⟩ := exists_markEnd h
  rw [hmark, hs]
  refine ⟨?_, ?_⟩
  · cases front <;> rfl
  · by_cases hnil : trail = []
    · simp [Flow.endsBlank, hnil, hc]
      rfl
    · rw [Flow.endsBlank, Flow.endsBlank, List.append_cons, List.getLast?_append_of_ne_nil _ hnil,
        List.getLast?_append_of_ne_nil _ hnil]

/-- A mark is one character more. -/
theorem perm_markStart (s : Text) : (markStart s).Perm ('\x60' :: s) := by
  have h : (markStart s).Perm ('\x60' :: (s.takeWhile isFlowBlank ++ s.dropWhile isFlowBlank)) :=
    List.perm_middle
  rwa [List.takeWhile_append_dropWhile] at h

/-- The text with a mark behind its last word holds its characters and the mark. -/
theorem perm_markEnd (s : Text) : (markEnd s).Perm ('\x60' :: s) := by
  have h : (markEnd s).Perm ('\x60' :: (s.rdropWhile isFlowBlank ++ s.rtakeWhile isFlowBlank)) :=
    List.perm_middle
  rwa [List.rdropWhile_append_rtakeWhile] at h

end Text

/-! ## (2) Tokens -/

namespace Token

variable {tokens content marked : List Token} {mark : Text → Text} {names : List Text} {n : Nat}

/-- A text with a mark, if it has words. -/
def typeMark? (mark : Text → Text) : Token → Option Token
  | .text s => if (Text.words Text.isFlowBlank s).isEmpty then none else some (.text (mark s))
  | _ => none

/-- The tokens with a mark before their first word. -/
def markFirst (tokens : List Token) : List Token := tokens.lookmap (typeMark? Text.markStart)

/-- The tokens with a mark behind their last word. -/
def markLast (tokens : List Token) : List Token :=
  (tokens.reverse.lookmap (typeMark? Text.markEnd)).reverse

/-- Only text with words gets a mark. -/
theorem typeMark?_eq_none {token : Token} (h : token.hasWords = false) :
    token.typeMark? mark = none := by
  cases token with
  | text s => exact if_pos (by simpa [hasWords] using h)
  | _ => rfl

/-- A text with words gets one. -/
theorem typeMark?_eq_some (mark : Text → Text) {token : Token} (h : token.hasWords = true) : ∃ s,
    Text.words Text.isFlowBlank s ≠ [] ∧ token = .text s ∧
      token.typeMark? mark = some (.text (mark s)) := by
  cases token with
  | text s =>
    have hs : Text.words Text.isFlowBlank s ≠ [] := by simpa [hasWords] using h
    exact ⟨s, hs, rfl, if_neg (by simpa using hs)⟩
  | _ => cases h

/-- Which text gets the mark. -/
theorem exists_lookmap_typeMark (mark : Text → Text) (h : ∃ t ∈ tokens, t.hasWords = true) :
    ∃ before s after, tokens = before ++ .text s :: after ∧
      (∀ t ∈ before, t.hasWords = false) ∧ Text.words Text.isFlowBlank s ≠ [] ∧
      tokens.lookmap (typeMark? mark) = before ++ .text (mark s) :: after := by
  induction tokens with
  | nil => simp at h
  | cons token tokens ih =>
    -- The first text with words gets the mark, and the tokens before it are passed over.
    cases hwords : token.hasWords with
    | true =>
      obtain ⟨s, hs, rfl, hmark⟩ := typeMark?_eq_some mark hwords
      exact ⟨[], s, tokens, rfl, by simp, hs, List.lookmap_cons_some _ _ hmark⟩
    | false =>
      have hrest : ∃ t ∈ tokens, t.hasWords = true := by simpa [hwords] using h
      obtain ⟨before, s, after, rfl, hbefore, hs, hlookmap⟩ := ih hrest
      refine ⟨token :: before, s, after, rfl, List.forall_mem_cons.2 ⟨hwords, hbefore⟩, hs, ?_⟩
      rw [List.lookmap_cons_none _ _ (typeMark?_eq_none hwords), hlookmap]
      rfl

/-- Tokens without words stay as they are. -/
theorem lookmap_typeMark_of_wordless (mark : Text → Text)
    (h : ∀ t ∈ tokens, t.hasWords = false) : tokens.lookmap (typeMark? mark) = tokens :=
  List.lookmap_of_forall_not _ fun t ht => typeMark?_eq_none (h t ht)

/-- **Where the mark before the first word stands.** -/
theorem exists_markFirst (h : ∃ t ∈ tokens, t.hasWords = true) :
    ∃ before s after, tokens = before ++ .text s :: after ∧
      (∀ t ∈ before, t.hasWords = false) ∧ Text.words Text.isFlowBlank s ≠ [] ∧
      markFirst tokens = before ++ .text (Text.markStart s) :: after :=
  exists_lookmap_typeMark Text.markStart h

/-- **Where the mark behind the last word stands.** -/
theorem exists_markLast (h : ∃ t ∈ tokens, t.hasWords = true) :
    ∃ before s after, tokens = before ++ .text s :: after ∧
      (∀ t ∈ after, t.hasWords = false) ∧ Text.words Text.isFlowBlank s ≠ [] ∧
      markLast tokens = before ++ .text (Text.markEnd s) :: after := by
  have hreverse : ∃ t ∈ tokens.reverse, t.hasWords = true := by simpa using h
  -- Read from the end, the last text with words is the first one.
  obtain ⟨after, s, before, hsplit, hafter, hs, hlookmap⟩ :=
    exists_lookmap_typeMark Text.markEnd hreverse
  refine ⟨before.reverse, s, after.reverse, ?_, by simpa using hafter, hs, ?_⟩
  · rw [← List.reverse_reverse tokens, hsplit]
    simp
  · rw [markLast, hlookmap]
    simp

/-- Tokens without words are given no mark before a word. -/
theorem markFirst_of_wordless (h : ∀ t ∈ tokens, t.hasWords = false) :
    markFirst tokens = tokens :=
  lookmap_typeMark_of_wordless Text.markStart h

/-- Tokens without words are given no mark behind a word. -/
theorem markLast_of_wordless (h : ∀ t ∈ tokens, t.hasWords = false) : markLast tokens = tokens := by
  rw [markLast, lookmap_typeMark_of_wordless Text.markEnd (by simpa using h), List.reverse_reverse]

/-- The tokens with a mark before their first word and one behind their last word. -/
def markWords (tokens : List Token) : List Token := markLast (markFirst tokens)

/-- What does not tell a text from the one with its mark does not tell the tokens apart. -/
theorem map_lookmap_typeMark {α : Type} {f : Token → α}
    (hf : ∀ s, Text.words Text.isFlowBlank s ≠ [] → f (.text s) = f (.text (mark s)))
    (tokens : List Token) : (tokens.lookmap (typeMark? mark)).map f = tokens.map f := by
  refine List.lookmap_map_eq _ f (fun token marked hmarked => ?_) tokens
  cases hwords : token.hasWords with
  | true =>
    obtain ⟨s, hs, rfl, hmark⟩ := typeMark?_eq_some mark hwords
    obtain rfl := Option.some.inj (hmark.symm.trans hmarked)
    exact hf s hs
  | false =>
    rw [typeMark?_eq_none hwords] at hmarked
    cases hmarked

/-- What does not look at texts is the same with a mark. -/
theorem map_markFirst {α : Type} {f : Token → α}
    (hf : ∀ s t, Text.words Text.isFlowBlank s ≠ [] → Text.words Text.isFlowBlank t ≠ [] →
      f (.text s) = f (.text t))
    (tokens : List Token) : (markFirst tokens).map f = tokens.map f := by
  refine map_lookmap_typeMark (fun s hs => hf s _ hs ?_) tokens
  obtain ⟨w, ws, hwords⟩ := List.exists_cons_of_ne_nil hs
  rw [Text.words_markStart hwords]
  exact List.cons_ne_nil _ _

/-- What does not tell texts with words apart does not see the mark behind the last one. -/
theorem map_markLast {α : Type} {f : Token → α}
    (hf : ∀ s t, Text.words Text.isFlowBlank s ≠ [] → Text.words Text.isFlowBlank t ≠ [] →
      f (.text s) = f (.text t))
    (tokens : List Token) : (markLast tokens).map f = tokens.map f := by
  have hend : (tokens.reverse.lookmap (typeMark? Text.markEnd)).map f = tokens.reverse.map f := by
    refine map_lookmap_typeMark (fun s hs => hf s _ hs ?_) tokens.reverse
    obtain ⟨ws, w, hwords⟩ := (List.eq_nil_or_concat _).resolve_left hs
    rw [Text.words_markEnd (hwords.trans List.concat_eq_append)]
    simp
  rw [markLast, List.map_reverse, hend, List.map_reverse, List.reverse_reverse]

/-- A property that all tokens have is one of all tokens with a mark if no text decides it. -/
theorem forall_mem_of_map {p : Token → Bool} {b : Bool} {marked : List Token}
    (hmap : marked.map p = tokens.map p) (h : ∀ t ∈ tokens, p t = b) : ∀ t ∈ marked, p t = b := by
  intro t ht
  have hmem : p t ∈ marked.map p := List.mem_map_of_mem ht
  rw [hmap] at hmem
  obtain ⟨t', ht', heq⟩ := List.mem_map.1 hmem
  rw [← heq]
  exact h t' ht'

/-- What all tokens have whatever their texts, they have with a mark before the first word. -/
theorem forall_markFirst {p : Token → Bool} {b : Bool} (hp : ∀ s t, p (.text s) = p (.text t))
    (h : ∀ t ∈ tokens, p t = b) : ∀ t ∈ markFirst tokens, p t = b :=
  forall_mem_of_map (map_markFirst (fun s t _ _ => hp s t) tokens) h

/-- What all tokens have whatever their texts, they have with marks around their words. -/
theorem forall_markWords {p : Token → Bool} {b : Bool} (hp : ∀ s t, p (.text s) = p (.text t))
    (h : ∀ t ∈ tokens, p t = b) : ∀ t ∈ markWords tokens, p t = b :=
  forall_mem_of_map (map_markLast (fun s t _ _ => hp s t) _) (forall_markFirst hp h)

/-- All texts with words are alike in having words. -/
theorem hasWords_text {s t : Text} (hs : Text.words Text.isFlowBlank s ≠ [])
    (ht : Text.words Text.isFlowBlank t ≠ []) : hasWords (.text s) = hasWords (.text t) := by
  simp [hasWords, List.isEmpty_eq_false_iff.2 hs, List.isEmpty_eq_false_iff.2 ht]

/-- A mark before the first word leaves tokens with words if they had some. -/
theorem any_hasWords_markFirst (tokens : List Token) :
    (markFirst tokens).any hasWords = tokens.any hasWords := by
  simpa using congrArg (·.any id) (map_markFirst (fun _ _ => hasWords_text) tokens)

/-- Marks around the words leave tokens with words if they had some. -/
theorem any_hasWords_markWords (tokens : List Token) :
    (markWords tokens).any hasWords = tokens.any hasWords := by
  rw [← any_hasWords_markFirst tokens, markWords]
  simpa using congrArg (·.any id) (map_markLast (fun _ _ => hasWords_text) (markFirst tokens))

/-- Texts play no part in what is open. -/
theorem openNames_text (names : List Text) (before after : List Token) (s t : Text) :
    openNames names (before ++ .text s :: after) =
      openNames names (before ++ .text t :: after) := by
  rw [openNames_append, openNames_append]
  rfl

/-- Marks around the words leave the same elements open. -/
theorem openNames_markWords (names : List Text) (tokens : List Token) :
    openNames names (markWords tokens) = openNames names tokens := by
  have hfirst : openNames names (markFirst tokens) = openNames names tokens := by
    by_cases h : ∃ t ∈ tokens, t.hasWords = true
    · obtain ⟨before, s, after, hsplit, -, -, hmark⟩ := exists_markFirst h
      rw [hmark, hsplit, openNames_text]
    · rw [markFirst_of_wordless (by simpa using h)]
  have hlast : ∀ more, openNames names (markLast more) = openNames names more := by
    intro more
    by_cases h : ∃ t ∈ more, t.hasWords = true
    · obtain ⟨before, s, after, hsplit, -, -, hmark⟩ := exists_markLast h
      rw [hmark, hsplit, openNames_text]
    · rw [markLast_of_wordless (by simpa using h)]
  rw [markWords, hlast, hfirst]

/-! ## (3) Inline code with typed marks -/

/-- The same tokens with the marks of inline code typed into their texts. An element of inline code
gets a mark before its first word and one behind its last word, after those of the elements inside
it, and none if it has no word; an element within a line takes its place. The number is that of the
elements of inline code with words. -/
inductive CodeMarked : List Token → Nat → List Token → Prop
  | nil : CodeMarked [] 0 []
  | text (s : Text) {tokens marked : List Token} {n : Nat} (rest : CodeMarked tokens n marked) :
      CodeMarked (.text s :: tokens) n (.text s :: marked)
  | empty (name : Text) (attributes : List Attribute) {tokens marked : List Token} {n : Nat}
      (rest : CodeMarked tokens n marked) :
      CodeMarked (.empty name attributes :: tokens) n (.empty name attributes :: marked)
  | element (name : Text) (attributes : List Attribute) (hname : TagRole.ofName name ≠ .code)
      {content inner tokens marked : List Token} {k n : Nat} (hinner : CodeMarked content k inner)
      (rest : CodeMarked tokens n marked) :
      CodeMarked (.opening name attributes :: (content ++ .closing name :: tokens)) (k + n)
        (.opening name attributes :: (inner ++ .closing name :: marked))
  | code (name : Text) (attributes : List Attribute) (hname : TagRole.ofName name = .code)
      {content inner tokens marked : List Token} {k n : Nat} (hinner : CodeMarked content k inner)
      (rest : CodeMarked tokens n marked) :
      CodeMarked (.opening name attributes :: (content ++ .closing name :: tokens))
        ((if content.any hasWords then 1 else 0) + k + n)
        (.opening "span".toList attributes ::
          (markWords inner ++ .closing "span".toList :: marked))

/-- **The marks can be typed into well-nested tokens.** -/
theorem Nested.exists_codeMarked (h : Nested tokens) :
    ∃ marked n, CodeMarked tokens n marked := by
  induction h with
  | nil => exact ⟨_, _, .nil⟩
  | text s _ ih =>
    obtain ⟨_, _, h⟩ := ih
    exact ⟨_, _, .text s h⟩
  | empty name attributes _ ih =>
    obtain ⟨_, _, h⟩ := ih
    exact ⟨_, _, .empty name attributes h⟩
  | element name attributes _ _ ihInner ihRest =>
    obtain ⟨_, _, hinner⟩ := ihInner
    obtain ⟨_, _, hrest⟩ := ihRest
    by_cases hname : TagRole.ofName name = .code
    · exact ⟨_, _, .code name attributes hname hinner hrest⟩
    · exact ⟨_, _, .element name attributes hname hinner hrest⟩

namespace CodeMarked

/-- Tokens with typed marks have words where they had some before. -/
theorem any_hasWords (h : CodeMarked tokens n marked) :
    marked.any hasWords = tokens.any hasWords := by
  induction h with
  | nil => rfl
  | text s _ ih => simp [ih]
  | empty name attributes _ ih => simp [ih]
  | element name attributes hname _ _ ihInner ihRest => simp [hasWords, ihInner, ihRest]
  | code name attributes hname _ _ ihInner ihRest =>
    simp [hasWords, any_hasWords_markWords, ihInner, ihRest]

/-- **Tokens with typed marks** are well nested. -/
theorem openNames (h : CodeMarked tokens n marked) (names : List Text) :
    Token.openNames names marked = some names := by
  induction h generalizing names with
  | nil => rfl
  | text s _ ih => exact ih names
  | empty name attributes _ ih => exact ih names
  | element name attributes hname _ _ ihInner ihRest =>
    show Token.openNames (name :: names) _ = some names
    rw [openNames_append, ihInner]
    show (if name = name then Token.openNames names _ else none) = some names
    rw [if_pos rfl, ihRest]
  | code name attributes hname _ _ ihInner ihRest =>
    -- Marks change texts only, which open nothing.
    show Token.openNames ("span".toList :: names) _ = some names
    rw [openNames_append, openNames_markWords, ihInner]
    exact ihRest names

/-- The marks are typed, and no element of inline code is left. -/
theorem isCode (h : CodeMarked tokens n marked) : ∀ t ∈ marked, t.isCode = false := by
  induction h with
  | nil => simp
  | text s _ ih => simpa [Token.isCode] using ih
  | empty name attributes _ ih => simpa [Token.isCode] using ih
  | element name attributes hname _ _ ihInner ihRest =>
    have htags : (TagRole.ofName name == .code) = false := by simpa using hname
    simp only [List.forall_mem_cons, List.forall_mem_append]
    exact ⟨htags, ihInner, htags, ihRest⟩
  | code name attributes hname _ _ ihInner ihRest =>
    simp only [List.forall_mem_cons, List.forall_mem_append]
    exact ⟨rfl, forall_markWords (fun _ _ => rfl) ihInner, rfl, ihRest⟩

/-- Text goes to the lines of the page as before. -/
theorem takesText (h : CodeMarked tokens n marked) (htext : ∀ t ∈ tokens, t.takesText = true) :
    ∀ t ∈ marked, t.takesText = true := by
  induction h with
  | nil => simp
  | text s _ ih => exact List.forall_mem_cons.2 ⟨rfl, ih (List.forall_mem_cons.1 htext).2⟩
  | empty name attributes _ ih =>
    exact List.forall_mem_cons.2 ⟨rfl, ih (List.forall_mem_cons.1 htext).2⟩
  | element name attributes hname _ _ ihInner ihRest =>
    simp only [List.forall_mem_cons, List.forall_mem_append] at htext ⊢
    obtain ⟨hopening, hcontent, hclosing, htokens⟩ := htext
    exact ⟨hopening, ihInner hcontent, hclosing, ihRest htokens⟩
  | code name attributes hname _ _ ihInner ihRest =>
    simp only [List.forall_mem_cons, List.forall_mem_append] at htext ⊢
    obtain ⟨-, hcontent, -, htokens⟩ := htext
    exact ⟨rfl, forall_markWords (fun _ _ => rfl) (ihInner hcontent), rfl, ihRest htokens⟩

end CodeMarked

end Token

end ChapterLayout
