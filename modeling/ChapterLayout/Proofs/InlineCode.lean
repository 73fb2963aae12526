import ChapterLayout.Proofs.Flow.CodeMarks
import ChapterLayout.Proofs.Flow.Ticks
import ChapterLayout.Proofs.Footnote
import ChapterLayout.Proofs.Justify.Again

/-! # Inline code in backticks

Inline code is shown in backticks, one before its first word and one behind its last word. The marks
can be put there if no element of inline code starts while the mark of another one waits for a word,
and none ends on a line that was begun after its last word:

* **`Token.CodeMarked.sum_ticks`** — typing the marks adds two backticks for every element with
  words;
* **`Flow.run_codeMarked`** — where the marks can be put, the lines are those of the tokens with the
  marks typed into their texts;
* **`Flow.run_ticks`** — without inline code the backticks of the lines are those of the tokens;
* **`Chapter.justify_code`** — so inline code adds its marks and nothing else, also to spread
  lines. -/

namespace ChapterLayout

/-! ## (1) Backticks of marked tokens -/

namespace Token

variable {tokens marked : List Token} {n : Nat}

/-- The backticks of tokens around a text. -/
theorem sum_ticks_text (before after : List Token) (s : Text) :
    ((before ++ .text s :: after).map ticks).sum =
      ((before.map ticks).sum + (after.map ticks).sum) + Text.ticks s := by
  rw [List.map_append, List.sum_append, List.map_cons, List.sum_cons]
  have htext : ticks (.text s) = Text.ticks s := rfl
  omega

/-- The mark before the first word adds a backtick if there are words. -/
theorem sum_ticks_markFirst (tokens : List Token) :
    ((markFirst tokens).map ticks).sum =
      (tokens.map ticks).sum + if tokens.any hasWords then 1 else 0 := by
  by_cases h : ∃ t ∈ tokens, t.hasWords = true
  · have hmark : ∀ s, Text.ticks (Text.markStart s) = Text.ticks s + 1 := fun s =>
      ((Text.perm_markStart s).count_eq _).trans List.count_cons_self
    rw [if_pos (List.any_eq_true.2 h)]
    obtain ⟨before, s, after, rfl, -, -, hfirst⟩ := exists_markFirst h
    rw [hfirst, sum_ticks_text, sum_ticks_text, hmark]
    rfl
  · rw [if_neg (mt List.any_eq_true.1 h), markFirst_of_wordless (by simpa using h), Nat.add_zero]

/-- The mark behind the last word adds a backtick if there are words. -/
theorem sum_ticks_markLast (tokens : List Token) :
    ((markLast tokens).map ticks).sum =
      (tokens.map ticks).sum + if tokens.any hasWords then 1 else 0 := by
  by_cases h : ∃ t ∈ tokens, t.hasWords = true
  · have hmark : ∀ s, Text.ticks (Text.markEnd s) = Text.ticks s + 1 := fun s =>
      ((Text.perm_markEnd s).count_eq _).trans List.count_cons_self
    rw [if_pos (List.any_eq_true.2 h)]
    obtain ⟨before, s, after, rfl, -, -, hlast⟩ := exists_markLast h
    rw [hlast, sum_ticks_text, sum_ticks_text, hmark]
    rfl
  · rw [if_neg (mt List.any_eq_true.1 h), markLast_of_wordless (by simpa using h), Nat.add_zero]

/-- **Typed marks** are two backticks for every element of inline code with words. -/
theorem CodeMarked.sum_ticks (h : CodeMarked tokens n marked) :
    (marked.map ticks).sum = (tokens.map ticks).sum + 2 * n := by
  induction h with
  | nil => rfl
  | text s _ ih =>
    rw [List.map_cons, List.map_cons, List.sum_cons, List.sum_cons, ih, Nat.add_assoc]
  | empty name attributes _ ih =>
    rw [List.map_cons, List.map_cons, List.sum_cons, List.sum_cons, ih, Nat.add_assoc]
  | @element name attributes hname content inner tokens marked k n _ _ ihInner ihRest =>
    simp only [List.map_cons, List.map_append, List.sum_cons, List.sum_append, ihInner, ihRest]
    omega
  | @code name attributes hname content inner tokens marked k n hinner _ ihInner ihRest =>
    -- The elements inside have their marks already, and these make no text a text with words.
    have hinside : ((markWords inner).map ticks).sum =
        (content.map ticks).sum + 2 * k + 2 * if content.any hasWords then 1 else 0 := by
      rw [markWords, sum_ticks_markLast, sum_ticks_markFirst, any_hasWords_markFirst, ihInner,
        hinner.any_hasWords]
      omega
    have htags : ∀ name, ticks (.opening name attributes) = 0 ∧ ticks (.closing name) = 0 :=
      fun _ => ⟨rfl, rfl⟩
    simp only [List.map_cons, List.map_append, List.sum_cons, List.sum_append, hinside, ihRest,
      (htags _).1, (htags _).2]
    omega

end Token

/-! ## (2) Runs -/

namespace Flow

variable {settings : Settings} {flow a b : Flow} {tokens marked : List Token} {names : List Text}
  {n : Nat}

/-- Well-nested tokens have the same marks put at their tags if they do what they do where text goes
to the lines of the page. -/
theorem marksCodeAll_feed (h : flow.TakesText) (htokens : ∀ t ∈ tokens, t.takesText = true)
    {base names' : List Text} (hopen : Token.openNames names tokens = some names')
    (hnames : flow.elementNames = names ++ base) :
    marksCodeAll (·.feed settings ·) flow tokens =
      marksCodeAll (·.act settings ·) flow tokens := by
  induction tokens generalizing flow names with
  | nil => rfl
  | cons token tokens ih =>
    obtain ⟨htoken, htokens⟩ := List.forall_mem_cons.1 htokens
    obtain ⟨between, hact, hrest, hnext⟩ := feed_next settings h htoken hopen hnames
    rw [marksCodeAll, marksCodeAll, hact, ih (h.act htoken) htokens hrest hnext]

/-- At the start of a chapter text goes to the lines of the page. -/
theorem takesText_start : TakesText {} := ⟨rfl, rfl, rfl, rfl⟩

/-- What is complete at the end of a chapter, where text goes to the lines of the page. -/
theorem TakesText.flush_eq (h : flow.TakesText) :
    flow.flush settings = if flow.current.isEmpty then flow else flow.commit := by
  rw [Flow.flush_eq h.inTable, h.inPre]
  rfl

/-- The lines at the end look at the outline only. -/
theorem outline_flush (settings : Settings) (ha : a.TakesText) (hb : b.TakesText)
    (h : a.outline = b.outline) :
    (a.flush settings).outline = (b.flush settings).outline := by
  have hcommit : Blind commit := blind_of_styles (fun _ => rfl) fun _ => rfl
  have hflush : Blind fun flow : Flow => if flow.current.isEmpty then flow else flow.commit :=
    blind_id.ite hcommit fun _ => Iff.rfl
  rw [ha.flush_eq, hb.flush_eq]
  exact hflush.congr h

/-- **The lines of a chapter with inline code** are those of its tokens with the marks typed into
their texts, wherever the marks can be put. -/
theorem run_codeMarked (settings : Settings) (hmarked : Token.CodeMarked tokens n marked)
    (hnested : Token.Nested tokens) (htext : ∀ t ∈ tokens, t.takesText = true)
    (hmarks : marksCodeAll (·.feed settings ·) {} tokens = true) :
    (run settings tokens).page.lines = (run settings marked).page.lines ∧
      (run settings tokens).page.noJustify = (run settings marked).page.noJustify := by
  have hopen := hnested.openNames []
  have hshown := hmarked.takesText htext
  have hstart : ({} : Flow).Begun settings := begun_of_empty (.inl rfl) rfl rfl
  rw [marksCodeAll_feed takesText_start htext hopen rfl] at hmarks
  -- Both runs are runs of acts, and end in states with the same outline.
  obtain ⟨hsame, -⟩ := laysOut_codeMarked hmarked htext takesText_start hstart hmarks
    (sameLines_refl _)
  have hflush := outline_flush settings (takesText_start.actAll hstart htext).1
    (takesText_start.actAll hstart hshown).1 hsame.outline
  rw [← feedAll_eq_actAll takesText_start htext hopen rfl,
    ← feedAll_eq_actAll takesText_start hshown (hmarked.openNames []) rfl] at hflush
  have hlines := congrArg (fun flow : Flow => flow.page.lines) hflush
  have hexempt := congrArg (fun flow : Flow => flow.page.noJustify) hflush
  exact ⟨congrArg dropTrailingBlanks hlines, hexempt⟩

/-- **The backticks of the lines** are those of the tokens, if none is a tag of inline code. -/
theorem run_ticks (hopen : Token.openNames [] tokens = some [])
    (htext : ∀ t ∈ tokens, t.takesText = true) (hcode : ∀ t ∈ tokens, t.isCode = false) :
    Text.ticks (run settings tokens).page.lines.flatten = (tokens.map Token.ticks).sum := by
  have hstart : ({} : Flow).Begun settings := begun_of_empty (.inl rfl) rfl rfl
  have hadds : AddsTicks (tokens.map Token.ticks).sum (actAll · settings tokens) :=
    addsTicks_actAll htext hcode
  obtain ⟨-, hticks⟩ := hadds {} ⟨rfl, rfl⟩
  obtain ⟨htakes, -⟩ := takesText_start.actAll hstart htext
  dsimp only at hticks
  rw [← feedAll_eq_actAll takesText_start htext hopen rfl] at hticks htakes
  -- The line that is being filled is committed, and no other one is left.
  have hflush : ((feedAll {} settings tokens).flush settings).ticks =
      (tokens.map Token.ticks).sum := by
    rw [htakes.flush_eq]
    split
    · rw [hticks]
      exact Nat.zero_add _
    · rw [ticks_commit, hticks]
      exact Nat.zero_add _
  rw [ticks, flush_current, Text.ticks_nil, Nat.add_zero] at hflush
  obtain ⟨blanks, hblanks, hnil⟩ :=
    exists_dropTrailingBlanks_append ((feedAll {} settings tokens).flush settings).page.lines
  have hnone : blanks.flatten = [] := List.flatten_eq_nil_iff.2 hnil
  rw [hblanks, List.flatten_append, hnone, List.append_nil] at hflush
  exact hflush

end Flow

/-! ## (3) Chapters -/

namespace Page

variable {page page' justified : Page} {maxWidth : Int} {threshold : Threshold}

/-- Lines are justified by their text and the exemptions only. -/
theorem justifyLines_congr (h : page'.noJustify = page.noJustify) (index : Int)
    (lines : List Line) : page'.justifyLines maxWidth threshold index lines =
      page.justifyLines maxWidth threshold index lines := by
  induction lines generalizing index with
  | nil => rfl
  | cons line lines ih => rw [justifyLines, justifyLines, justifyLine?_congr h, ih]

/-- The lines that are spread depend on the lines and on what is exempt alone. -/
theorem justify_congr (hlines : page'.lines = page.lines)
    (hexempt : page'.noJustify = page.noJustify)
    (h : page.justify maxWidth threshold = .ok justified) :
    ∃ justified', page'.justify maxWidth threshold = .ok justified' ∧
      justified'.lines = justified.lines := by
  obtain ⟨spread, hspread, h⟩ := exists_of_bind_ok h
  obtain rfl := Except.ok.inj h
  rw [Page.justify, hlines, justifyLines_congr hexempt, hspread]
  exact ⟨_, rfl, rfl⟩

end Page

/-- Lines with the same words have the same backticks. -/
theorem Text.ticks_flatten_congr {lines lines' : List Line}
    (h : lines.map (words isSpace) = lines'.map (words isSpace)) :
    ticks lines.flatten = ticks lines'.flatten := by
  have hwords : ∀ lines : List Line, ticks lines.flatten =
      ((lines.map (words isSpace)).map fun ws => ticks ws.flatten).sum := by
    intro lines
    induction lines with
    | nil => rfl
    | cons line lines ih =>
      rw [List.flatten_cons, ticks_append, ih, List.map_cons, List.map_cons, List.sum_cons,
        ticks_words (by decide)]
  rw [hwords, hwords, h]

namespace Chapter

variable {settings : Settings} {tokens marked : List Token} {page : Page}

/-- Spreading lines leaves their backticks alone. -/
theorem justify_ticks (h : justify settings (Flow.run settings tokens).page = .ok page) :
    Text.ticks page.lines.flatten = Text.ticks (Flow.run settings tokens).page.lines.flatten := by
  unfold justify at h
  split at h
  · obtain ⟨lines, maps, hspread, rfl⟩ := Page.exists_of_justify h
    exact Text.ticks_flatten_congr (hspread.words_eq rfl (Flow.spreadable_run settings _).lines)
  · obtain rfl := Except.ok.inj h
    rfl

/-- Lines that depend on the lines of another page alone are spread as these. -/
theorem justify_congr
    (hlines : (Flow.run settings marked).page.lines = (Flow.run settings tokens).page.lines)
    (hexempt : (Flow.run settings marked).page.noJustify =
      (Flow.run settings tokens).page.noJustify)
    (h : justify settings (Flow.run settings tokens).page = .ok page) :
    ∃ page', justify settings (Flow.run settings marked).page = .ok page' ∧
      page'.lines = page.lines := by
  unfold justify at h ⊢
  split at h
  · rename_i hjustify
    rw [if_pos hjustify]
    exact Page.justify_congr hlines hexempt h
  · rename_i hjustify
    obtain rfl := Except.ok.inj h
    rw [if_neg hjustify]
    exact ⟨_, rfl, hlines⟩

/-- **Inline code is shown in backticks.** Take well-nested tokens outside tables, preformatted
text, the head and raw elements in which no element of inline code starts while the mark of another
one waits for a word, and each ends on the line of its last word if it has one. Their lines, spread
or not, are those of the same tokens with a backtick typed before the first word and one behind the
last word of every element of inline code with words. The backticks in the lines are these and those
of the tokens. -/
theorem justify_code (h : justify settings (Flow.run settings tokens).page = .ok page)
    (hnested : Token.Nested tokens) (htext : ∀ t ∈ tokens, t.takesText = true)
    (hmarks : Flow.marksCodeAll (·.feed settings ·) {} tokens = true) :
    ∃ marked n page', Token.CodeMarked tokens n marked ∧
      justify settings (Flow.run settings marked).page = .ok page' ∧ page.lines = page'.lines ∧
      Text.ticks page.lines.flatten = (tokens.map Token.ticks).sum + 2 * n := by
  obtain ⟨marked, n, hmarked⟩ := hnested.exists_codeMarked
  obtain ⟨hlines, hexempt⟩ := Flow.run_codeMarked settings hmarked hnested htext hmarks
  obtain ⟨page', hpage', hsame⟩ := justify_congr hlines.symm hexempt.symm h
  refine ⟨marked, n, page', hmarked, hpage', hsame.symm, ?_⟩
  rw [justify_ticks h, hlines,
    Flow.run_ticks (hmarked.openNames []) (hmarked.takesText htext) hmarked.isCode,
    hmarked.sum_ticks]

/-- Inline code over the end of a line that is spread, one without words, and one inside another
one, whose two marks make the word move to the next line. -/
theorem justify_code_nested :
    let settings : Settings := { maxWidth := 8, justify := true }
    let tokens : List Token :=
      [.text "aaa ".toList, .opening "code".toList [], .text "bb cc".toList,
        .closing "code".toList, .opening ['p'] [], .text "d ".toList,
        .opening "code".toList [], .text [' '], .closing "code".toList,
        .opening "code".toList [], .text "e ".toList, .opening "code".toList [],
        .text "ff".toList, .closing "code".toList, .text [' '], .closing "code".toList,
        .closing ['p']]
    (Token.Nested tokens ∧ (∀ t ∈ tokens, t.takesText = true) ∧
      Flow.marksCodeAll (·.feed settings ·) {} tokens = true) ∧
    ∃ page, justify settings (Flow.run settings tokens).page = .ok page ∧
      page.lines = ["aaa  `bb".toList, "cc`".toList, "d `e".toList, "`ff``".toList] ∧
      ∃ marked n page', Token.CodeMarked tokens n marked ∧
        justify settings (Flow.run settings marked).page = .ok page' ∧ page.lines = page'.lines ∧
        Text.ticks page.lines.flatten = (tokens.map Token.ticks).sum + 2 * n := by
  intro settings tokens
  have hnested : Token.Nested tokens :=
    .text _ (.element _ _ (.text _ .nil) (.element _ _ (.text _ (.element _ _ (.text _ .nil)
      (.element _ _ (.text _ (.element _ _ (.text _ .nil) (.text _ .nil))) .nil))) .nil))
  have htext : ∀ t ∈ tokens, t.takesText = true := by decide
  have hmarks : Flow.marksCodeAll (·.feed settings ·) {} tokens = true := by
    decide +kernel
  have hlines : (justify settings (Flow.run settings tokens).page).toOption.map (·.lines) =
      some ["aaa  `bb".toList, "cc`".toList, "d `e".toList, "`ff``".toList] := by decide +kernel
  refine ⟨⟨hnested, htext, hmarks⟩, ?_⟩
  cases h : justify settings (Flow.run settings tokens).page with
  | error e => rw [h] at hlines; cases hlines
  | ok page =>
    rw [h] at hlines
    exact ⟨page, rfl, Option.some.inj hlines, justify_code h hnested htext hmarks⟩

/-- A line break behind the last word takes its mark away. -/
theorem justify_code_lineBreak :
    let tokens : List Token := [.opening "code".toList [], .text ['a'],
      .empty "br".toList [], .closing "code".toList]
    let marked : List Token := [.opening "span".toList [], .text "`a`".toList,
      .empty "br".toList [], .closing "span".toList]
    Token.Nested tokens ∧ (∀ t ∈ tokens, t.takesText = true) ∧ (tokens.map Token.ticks).sum = 0 ∧
      Token.CodeMarked tokens 1 marked ∧
      (justify {} (Flow.run {} marked).page).toOption.map (·.lines) = some ["`a`".toList] ∧
      (justify {} (Flow.run {} tokens).page).toOption.map (·.lines) = some ["`a".toList] := by
  intro tokens marked
  have hnested : Token.Nested tokens := .element _ _ (.text _ (.empty _ _ .nil)) .nil
  have hmarked : Token.CodeMarked tokens 1 marked :=
    .code "code".toList [] rfl (.text ['a'] (.empty "br".toList [] .nil)) .nil
  exact ⟨hnested, by decide, rfl, hmarked, by decide +kernel, by decide +kernel⟩

end Chapter

end ChapterLayout
