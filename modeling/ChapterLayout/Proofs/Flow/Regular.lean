import ChapterLayout.Proofs.Flow.Begun
import ChapterLayout.Proofs.Flow.Marks
import ChapterLayout.Proofs.Style.OnWords

/-! # What the spreading of words relies on

Lines whose words may be spread are regular: they do not end in a space, and every span and link on
them starts and ends at letters (`OnWords`), so that it can follow the words. All other lines are
exempt.

* **`Flow.Regular`** — all records of a run are settled, or stand on words of the line that is being
  filled, unless that line keeps its spacing whatever follows (`Flow.StaysRagged`);
* **`Regular.change`** — every change of the state keeps it;
* **`regular_feedAll`** — so every state that tokens lead to is regular. -/

namespace ChapterLayout

/-- Outside lists the marker is empty. -/
theorem IsMarker.lists_ne_nil {lists : List ListLevel} {marker : Text} (h : IsMarker lists marker)
    (hne : marker ≠ []) : lists ≠ [] := by
  rintro rfl
  cases h
  exact hne rfl

namespace Flow

/-- Whether the line that is being filled keeps its spacing whatever follows. -/
def StaysRagged (flow : Flow) : Prop :=
  (flow.context.inPre = true ∧ flow.preLineOpen = true) ∨
    ({ flow.context with inPre := false } : BlockContext).keepsSpacing = true

/-- Whether a record is settled, or stands on the line that is being filled, on words unless the
line keeps its spacing. -/
def Kept {ρ : Type} [Positioned ρ] (flow : Flow) (r : ρ) : Prop :=
  flow.page.Settled r ∨
    Positioned.line r = flow.lineIndex ∧ flow.current ≠ [] ∧
      (flow.StaysRagged ∨ OnWords flow.current r)

/-- Whether all lines that are not exempt end in letters and hold their records on words. -/
structure Orderly (flow : Flow) : Prop where
  lines : flow.page.LinesTrimmed
  spans : ∀ r ∈ flow.spans, flow.Kept r
  links : ∀ r ∈ flow.page.links, flow.Kept r
  images : ∀ r ∈ flow.page.images, flow.page.Settled r

variable {settings : Settings} {flow flow' : Flow} {word : Text}

/-! ## (1) Lines that keep their spacing -/

/-- A line that keeps its spacing is exempt when it is committed. -/
theorem StaysRagged.keepsSpacing (h : flow.StaysRagged) : flow.context.keepsSpacing = true := by
  rcases h with ⟨hpre, -⟩ | h
  · simp [BlockContext.keepsSpacing, hpre]
  · -- Without preformatted text fewer lines keep their spacing.
    simp only [BlockContext.keepsSpacing, Bool.or_eq_true] at h ⊢
    simp only [Bool.false_eq_true, or_false] at h
    tauto

/-- A line with an indentation keeps its spacing. -/
theorem staysRagged_of_indent (settings : Settings) (h : flow.indent settings ≠ []) :
    flow.StaysRagged := by
  right
  -- Only quotations, lists and descriptions indent, and each of them keeps the spacing.
  by_cases hquote : flow.context.quoteDepth = 0
  · by_cases hlists : flow.context.lists = []
    · by_cases hdescription : flow.context.inDescription = true
      · simp [BlockContext.keepsSpacing, hdescription]
      · exact absurd (BlockContext.indent_eq_nil hquote hlists (by simpa using hdescription)) h
    · simp [BlockContext.keepsSpacing, hlists]
  · simp [BlockContext.keepsSpacing, Nat.pos_of_ne_zero hquote]

/-- A line in a list keeps its spacing. -/
theorem staysRagged_of_lists (h : flow.context.lists ≠ []) : flow.StaysRagged := by
  right
  simp [BlockContext.keepsSpacing, h]

/-- A line with a marker keeps its spacing. -/
theorem IsBare.staysRagged (h : flow.IsBare settings) (hne : flow.current ≠ []) :
    flow.StaysRagged := by
  obtain ⟨marker, hmarker, hcurrent, -⟩ := h
  by_cases hnil : marker = []
  · refine staysRagged_of_indent settings fun hindent => hne ?_
    rw [hcurrent, hindent, hnil]
    rfl
  · exact staysRagged_of_lists (hmarker.lists_ne_nil hnil)

/-! ## (2) Records that are settled -/

section Records

variable {ρ : Type} [Positioned ρ] {r : ρ} {page : Page} {line : Line}

/-- Records do not stand on a line that is not begun. -/
theorem Kept.settled (h : flow.Kept r) (hnil : flow.current = []) : flow.page.Settled r :=
  h.resolve_right fun hcurrent => hcurrent.2.1 hnil

/-- A record is settled when its line is put on the page: the line is exempt, or the record stands
on its words. -/
theorem Kept.settle (h : flow.Kept r) (hlines : page.lines = flow.page.lines ++ [line])
    (hset : ∀ i ∈ flow.page.noJustify, i ∈ page.noJustify)
    (hline : (flow.lineIndex : Int) ∈ page.noJustify ∨
      (¬flow.StaysRagged ∧
        (Positioned.line r = flow.lineIndex → OnWords flow.current r → OnWords line r))) :
    page.Settled r := by
  rcases h with h | ⟨hindex, -, hcurrent⟩
  · exact h.mono hlines hset
  · refine ⟨flow.lineIndex, line, hindex, ?_, hline.imp id fun hwords => ?_⟩
    · rw [hlines, lineIndex, List.getElem?_append_right (Nat.le_refl _), Nat.sub_self]
      rfl
    · exact hwords.2 hindex (hcurrent.resolve_left hwords.1)

/-- A record on a line that is put on the page and is exempt. -/
theorem settled_of_exempt (hlines : page.lines = flow.page.lines ++ [line])
    (hindex : Positioned.line r = flow.lineIndex)
    (hexempt : (flow.lineIndex : Int) ∈ page.noJustify) :
    page.Settled r := by
  refine ⟨flow.lineIndex, line, hindex, ?_, Or.inl hexempt⟩
  rw [hlines, lineIndex, List.getElem?_append_right (Nat.le_refl _), Nat.sub_self]
  rfl

/-- The line that is being filled gets longer, and its records stay. -/
theorem Kept.grow (h : flow.Kept r) (hlines : flow'.page.lines = flow.page.lines)
    (hset : flow'.page.noJustify = flow.page.noJustify)
    (hragged : flow.StaysRagged → flow'.StaysRagged) {s : Text}
    (hcurrent : flow'.current = flow.current ++ s) : flow'.Kept r := by
  rcases h with h | ⟨hindex, hne, hwords⟩
  · have hlines' : flow'.page.lines = flow.page.lines ++ [] := by rw [hlines, List.append_nil]
    exact Or.inl (h.mono hlines' fun i hi => hset ▸ hi)
  · refine Or.inr ⟨by rw [hindex, lineIndex, lineIndex, hlines], ?_, ?_⟩
    · rw [hcurrent]
      exact List.append_ne_nil_of_left_ne_nil hne s
    · rw [hcurrent]
      exact hwords.imp hragged fun h => h.append s

/-- Where the line does not keep its spacing, no record reaches behind its end. -/
theorem endBefore_of_kept {records : List ρ} (h : ∀ r ∈ records, flow.Kept r)
    (hragged : ¬flow.StaysRagged) : EndBefore records flow.lineIndex flow.current.length := by
  intro r hr
  rcases h r hr with hsettled | ⟨hindex, -, hwords⟩
  · exact Or.inl hsettled.line_lt
  · obtain ⟨i, j, hi, hj, hlt, hletter, hletter'⟩ := hwords.resolve_left hragged
    have := hletter'.lt
    exact Or.inr ⟨hindex, by omega⟩

end Records

/-! ## (3) Lines that are committed -/

/-- Whether nothing stands on the line that is being filled. -/
structure AllSettled (page : Page) (spans : List Span) : Prop where
  lines : page.LinesTrimmed
  spans : ∀ r ∈ spans, page.Settled r
  links : ∀ r ∈ page.links, page.Settled r
  images : ∀ r ∈ page.images, page.Settled r

/-- Where no line is begun, everything is settled. -/
theorem Orderly.allSettled (h : flow.Orderly) (hnil : flow.current = []) :
    AllSettled flow.page flow.spans :=
  ⟨h.lines, fun r hr => (h.spans r hr).settled hnil, fun r hr => (h.links r hr).settled hnil,
    h.images⟩

/-- Where everything is settled, the line that is being filled does not matter. -/
theorem AllSettled.orderly (h : AllSettled flow.page flow.spans) : flow.Orderly :=
  ⟨h.lines, fun r hr => Or.inl (h.spans r hr), fun r hr => Or.inl (h.links r hr), h.images⟩

/-- What a committed line adds to the exempt lines. -/
theorem commit_noJustify (flow : Flow) :
    (∀ i ∈ flow.page.noJustify, i ∈ flow.commit.page.noJustify) ∧
      (flow.context.keepsSpacing = true → (flow.lineIndex : Int) ∈ flow.commit.page.noJustify) := by
  by_cases h : flow.context.keepsSpacing = true
  · have hset : flow.commit.page.noJustify = flow.page.noJustify.insert flow.lineIndex := by
      simp [Flow.commit, h]
    rw [hset]
    exact ⟨fun i hi => LineSet.mem_insert.2 (Or.inr hi), fun _ => LineSet.mem_insert.2 (Or.inl rfl)⟩
  · have hset : flow.commit.page.noJustify = flow.page.noJustify := by simp [Flow.commit, h]
    rw [hset]
    exact ⟨fun i hi => hi, fun h' => absurd h' h⟩

/-- The spans after a line is committed: a title has one span more. -/
theorem mem_commit_spans {r : Span} (h : r ∈ flow.commit.spans) :
    r ∈ flow.spans ∨ flow.context.inTitle = true ∧ r.line = flow.lineIndex := by
  by_cases htitle : flow.context.inTitle = true
  · have hspans : flow.commit.spans =
        flow.spans ++ [⟨flow.lineIndex, 0, flow.current.length, Group.title⟩] := by
      simp [Flow.commit, htitle]
    rw [hspans, List.mem_append, List.mem_singleton] at h
    rcases h with h | rfl
    · exact Or.inl h
    · exact Or.inr ⟨htitle, rfl⟩
  · have hspans : flow.commit.spans = flow.spans := by simp [Flow.commit, htitle]
    exact Or.inl (hspans ▸ h)

/-- Spacing is kept inside a title. -/
theorem keepsSpacing_of_inTitle (h : flow.context.inTitle = true) :
    flow.context.keepsSpacing = true := by
  simp [BlockContext.keepsSpacing, h]

/-- **A committed line** settles its records. It is exempt, or it must not end in a space. -/
theorem Orderly.commit (h : flow.Orderly)
    (hlast : flow.context.keepsSpacing = true ∨ flow.current.getLast? ≠ some ' ') :
    AllSettled flow.commit.page flow.commit.spans := by
  obtain ⟨hset, hexempt⟩ := commit_noJustify flow
  have hlines : flow.commit.page.lines = flow.page.lines ++ [flow.current] := rfl
  have hsettle : ∀ {ρ : Type} [Positioned ρ] {r : ρ}, flow.Kept r → flow.commit.page.Settled r := by
    intro ρ _ r hr
    refine hr.settle hlines hset ?_
    by_cases hkeeps : flow.context.keepsSpacing = true
    · exact Or.inl (hexempt hkeeps)
    · exact Or.inr ⟨fun hragged => hkeeps hragged.keepsSpacing, fun _ => id⟩
  -- The span that a title gets stands from column zero on, but title lines are exempt.
  refine ⟨h.lines.concat hlines hset (hlast.imp hexempt id), fun r hr => ?_,
    fun r hr => hsettle (h.links r hr), fun r hr => ?_⟩
  · rcases mem_commit_spans hr with hr | ⟨htitle, hindex⟩
    · exact hsettle (h.spans r hr)
    · exact settled_of_exempt hlines hindex (hexempt (keepsSpacing_of_inTitle htitle))
  · exact (h.images r hr).mono hlines hset

/-! ## (4) Words -/

/-- The line that is being filled gets longer. -/
theorem Orderly.grow (h : flow.Orderly) (s : Text) :
    Orderly { flow with current := flow.current ++ s } :=
  ⟨h.lines, fun r hr => (h.spans r hr).grow rfl rfl id rfl,
    fun r hr => (h.links r hr).grow rfl rfl id rfl, h.images⟩

/-- A line that is begun has no records yet. -/
theorem Orderly.beginLine (h : flow.Orderly) : (flow.beginLine settings).Orderly := by
  rcases beginLine_cases settings flow with ⟨-, hnil, hbegin⟩ | hbegin
  · rw [hbegin]
    exact AllSettled.orderly (h.allSettled hnil)
  · rw [hbegin]
    exact h

/-- Room is made for a word, and a line that ends there does not end in a space. -/
theorem Orderly.makeRoom (h : flow.Orderly)
    (hlast : flow.hasWords = true → flow.current.getLast? ≠ some ' ') :
    (flow.makeRoom settings word).Orderly := by
  rcases makeRoom_cases settings flow word with ⟨hw, hroom⟩ | hroom
  · rw [hroom]
    exact AllSettled.orderly (h.commit (Or.inr (hlast hw)))
  · rw [hroom]
    exact h.grow _

/-- A word is placed, and its records stand on it. -/
theorem Orderly.place (h : flow.Orderly) (hne : word ≠ [])
    (hword : ∀ c ∈ word, Text.isFlowBlank c = false) : (flow.place word).Orderly := by
  have hspace := isSpace_of_letter hword
  obtain ⟨hspans, hlinks⟩ := emitWord_columns flow.styles.active flow.lineIndex flow.current.length
    (flow.place word).current.length
  have hcurrent : flow.current ++ word ≠ [] := List.append_ne_nil_of_right_ne_nil _ hne
  refine ⟨h.lines, fun r hr => ?_, fun r hr => ?_, h.images⟩
  · rcases List.mem_append.1 hr with hr | hr
    · exact (h.spans r hr).grow rfl rfl id rfl
    · obtain ⟨hline, hstart, hend⟩ := hspans r hr
      exact Or.inr ⟨hline, hcurrent, Or.inr (onWords_of_columns hne hspace hstart hend)⟩
  · rcases List.mem_append.1 hr with hr | hr
    · exact (h.links r hr).grow rfl rfl id rfl
    · obtain ⟨hline, hstart, hend⟩ := hlinks r hr
      exact Or.inr ⟨hline, hcurrent, Or.inr (onWords_of_columns hne hspace hstart hend)⟩

/-- The marks of a word that starts, unless the line keeps its spacing. -/
theorem Orderly.startWord (h : flow.Orderly) :
    flow.startWord.Orderly ∧ (¬flow.StaysRagged → flow.startWord.Marked) :=
  ⟨⟨h.lines, h.spans, h.links, h.images⟩, fun hragged =>
    marked_startWord (endBefore_of_kept h.spans hragged) (endBefore_of_kept h.links hragged)⟩

/-- The records before a word that moves are settled on the line that is broken before it. -/
theorem settled_broken {ρ : Type} [Positioned ρ] {records : List ρ} {mark : Nat}
    (h : ∀ r ∈ records, flow.Kept r)
    (hmark : ¬flow.StaysRagged → MarkedAt records mark flow.lineIndex flow.wordStart) :
    ∀ r ∈ records.take mark, flow.broken.page.Settled r := by
  intro r hr
  obtain ⟨hset, hexempt⟩ := commit_noJustify { flow with
    current := Text.trimRight Text.isSpace (flow.current.take flow.wordStart)
    spans := flow.spans.take flow.spanMark
    page := { flow.page with links := flow.page.links.take flow.linkMark } }
  refine (h r (List.mem_of_mem_take hr)).settle rfl hset ?_
  by_cases hragged : flow.StaysRagged
  · exact Or.inl (hexempt hragged.keepsSpacing)
  · refine Or.inr ⟨hragged, fun hindex hwords => hwords.break ?_⟩
    have := (hmark hragged).before r hr
    omega

/-- The records of a word that moves stand on the next line. -/
theorem kept_moveWord {ρ : Type} [Positioned ρ] {records : List ρ} {mark : Nat} {relocated : ρ → ρ}
    (h : ∀ r ∈ records, flow.Kept r) (hholds : flow.HoldsWord)
    (hmark : ¬flow.StaysRagged → MarkedAt records mark flow.lineIndex flow.wordStart)
    (hmove : Relocates relocated flow.moveWord.lineIndex
      ((flow.continuation.length : Int) - flow.wordStart)) :
    ∀ r ∈ (records.drop mark).map relocated, flow.moveWord.Kept r := by
  intro r hr
  obtain ⟨r, hr', rfl⟩ := List.mem_map.1 hr
  refine Or.inr ⟨(hmove r).1, hholds.moveWord.current_ne_nil, ?_⟩
  by_cases hragged : flow.StaysRagged
  · exact Or.inl hragged
  · -- The word stands on the line that is being filled, and so do its records.
    obtain ⟨hline, hstart⟩ := (hmark hragged).behind r hr'
    rcases h r (List.mem_of_mem_drop hr') with hsettled | ⟨-, -, hwords⟩
    · have hlt := hsettled.line_lt
      rw [hline, lineIndex] at hlt
      exact absurd hlt (Int.lt_irrefl _)
    · exact Or.inr ((hwords.resolve_left hragged).move hstart hmove)

/-- **A word that moves** leaves a line that does not end in a space, and takes its records
along. -/
theorem Orderly.moveWord (h : flow.Orderly) (hholds : flow.HoldsWord)
    (hmarked : ¬flow.StaysRagged → flow.Marked) : flow.moveWord.Orderly := by
  obtain ⟨hset, hexempt⟩ := commit_noJustify { flow with
    current := Text.trimRight Text.isSpace (flow.current.take flow.wordStart)
    spans := flow.spans.take flow.spanMark
    page := { flow.page with links := flow.page.links.take flow.linkMark } }
  have hlines : flow.moveWord.page.lines =
      flow.page.lines ++ [Text.trimRight Text.isSpace (flow.current.take flow.wordStart)] := rfl
  -- The line is trimmed, and only the records behind the marks go along with the word.
  refine ⟨h.lines.concat hlines hset (Or.inr (Text.getLast?_trimRight _)), fun r hr => ?_,
    fun r hr => ?_, fun r hr => (h.images r hr).mono hlines hset⟩
  · rcases List.mem_append.1 hr with hr | hr
    · left
      rcases mem_commit_spans hr with hr | ⟨htitle, hindex⟩
      · exact settled_broken h.spans (fun hragged => (hmarked hragged).2.1) r hr
      · exact settled_of_exempt hlines hindex (hexempt (keepsSpacing_of_inTitle htitle))
    · exact kept_moveWord h.spans hholds (fun hragged => (hmarked hragged).2.1)
        (relocates_span _ _) r hr
  · rcases List.mem_append.1 hr with hr | hr
    · exact Or.inl (settled_broken h.links (fun hragged => (hmarked hragged).2.2) r hr)
    · exact kept_moveWord h.links hholds (fun hragged => (hmarked hragged).2.2)
        (relocates_link _ _) r hr

/-- A line that ends in a letter does not end in a space. -/
theorem HoldsWord.getLast?_ne (h : flow.HoldsWord) : flow.current.getLast? ≠ some ' ' := by
  obtain ⟨c, hc, hblank⟩ := h.getLast
  rw [hc]
  rintro ⟨⟩
  exact absurd hblank (by decide)

/-- The start of a line puts no words on it. -/
@[simp] theorem beginLine_hasWords (flow : Flow) :
    (flow.beginLine settings).hasWords = flow.hasWords := by
  unfold Flow.beginLine
  split <;> rfl

/-- What laying out words keeps: the lines are orderly, and so are the marks if the last word can
move, unless its line keeps its spacing. -/
structure Wordly (flow : Flow) : Prop where
  orderly : flow.Orderly
  marked : flow.wordMovable = true → ¬flow.StaysRagged → flow.Marked

/-- The last word stays or moves. -/
theorem Wordly.fitWord (h : flow.Wordly) (hholds : flow.HoldsWord) :
    (flow.fitWord settings).Wordly := by
  by_cases hmovable : flow.wordMovable = true
  · by_cases hwidth : (Text.width flow.current : Int) ≤ settings.maxWidth
    · rw [fitWord_stay hwidth]
      exact h
    · rw [fitWord_move (by omega) hmovable]
      exact ⟨h.orderly.moveWord hholds (h.marked hmovable), fun hm => absurd hm Bool.false_ne_true⟩
  · rw [fitWord_alone (by simpa using hmovable)]
    exact h

/-- **A word** keeps the lines orderly, wherever it goes. -/
theorem Wordly.addWord (h : flow.Orderly) (hbegun : flow.Begun settings)
    (hmarked : flow.hasWords = true → flow.wordMovable = true → ¬flow.StaysRagged → flow.Marked)
    (hne : word ≠ []) (hword : ∀ c ∈ word, Text.isFlowBlank c = false) (glue : Bool) :
    (flow.addWord settings word glue).Wordly := by
  have hne' : flow.pendingMark ++ word ≠ [] := List.append_ne_nil_of_right_ne_nil _ hne
  have hletters := mark_isLetter hbegun.pendingMark hword
  have hunmarked : flow.unmarked.Orderly := ⟨h.lines, h.spans, h.links, h.images⟩
  by_cases hglue : (glue && flow.hasWords) = true
  · -- The marks of a glued word are those of the word before it.
    obtain ⟨rfl, hw⟩ := Bool.and_eq_true_iff.1 hglue
    rw [addWord_glued hw]
    refine Wordly.fitWord ⟨hunmarked.place hne' hletters, fun hm hragged => ?_⟩
      (holdsWord_place (Nat.le_of_lt (hbegun.word hw).2.wordStart_lt) hne' hletters)
    have hunmarkedMarked : flow.unmarked.Marked := hmarked hw hm hragged
    exact hunmarkedMarked.place _
  · -- A fresh word may end the line before it, which holds a word and so ends in a letter.
    rw [addWord_fresh (by simpa using hglue)]
    have hbegin : (flow.unmarked.beginLine settings).Orderly := hunmarked.beginLine
    have hlast : (flow.unmarked.beginLine settings).hasWords = true →
        (flow.unmarked.beginLine settings).current.getLast? ≠ some ' ' := by
      intro hw
      rw [beginLine_hasWords] at hw
      have hsame : flow.unmarked.beginLine settings = flow.unmarked := beginLine_of_hasWords hw
      rw [hsame]
      exact (hbegun.word hw).2.getLast?_ne
    have hroom : ((flow.unmarked.beginLine settings).makeRoom settings
        (flow.pendingMark ++ word)).Orderly := hbegin.makeRoom hlast
    obtain ⟨hstart, hmark⟩ := hroom.startWord
    exact ⟨hstart.place hne' hletters, fun _ hragged => (hmark hragged).place _⟩

/-- The mark that ends inline code is placed like a piece of the word before it. -/
theorem Wordly.atCodeEnd (h : flow.Orderly) (hstart : flow.wordStart ≤ flow.current.length)
    (hmarked : flow.wordMovable = true → ¬flow.StaysRagged → flow.Marked) :
    flow.atCodeEnd.Wordly := by
  have hne : flow.current ++ ['\x60'] ≠ [] :=
    List.append_ne_nil_of_right_ne_nil _ (List.cons_ne_nil _ _)
  refine ⟨⟨h.lines, fun r hr => ?_, fun r hr => (h.links r hr).grow rfl rfl id rfl, h.images⟩,
    fun hm hragged => ?_⟩
  · rcases List.mem_append.1 hr with hr | hr
    · exact (h.spans r hr).grow rfl rfl id rfl
    · obtain rfl := List.mem_singleton.1 hr
      refine Or.inr ⟨rfl, hne, Or.inr (onWords_of_columns (by decide) isSpace_codeMark rfl ?_)⟩
      rw [List.length_append]
      rfl
  · obtain ⟨-, hspans, hlinks⟩ := hmarked hm hragged
    refine ⟨?_, hspans.append fun r hr => ?_, hlinks⟩
    · show flow.wordStart ≤ (flow.current ++ ['\x60']).length
      rw [List.length_append]
      omega
    · obtain rfl := List.mem_singleton.1 hr
      exact ⟨rfl, Int.ofNat_le.2 hstart⟩

/-! ## (5) Changes -/

/-- **Regular states**: the line that is being filled is in one of its cases, the lines are orderly,
and so are the marks of the last word. -/
structure Regular (settings : Settings) (flow : Flow) : Prop where
  begun : flow.Begun settings
  orderly : flow.Orderly
  marked : flow.hasWords = true → flow.wordMovable = true → ¬flow.StaysRagged → flow.Marked

/-- A line that can be committed is exempt or does not end in a space. -/
theorem Begun.keepsSpacing_or (h : flow.Begun settings) (hne : flow.current ≠ []) :
    flow.context.keepsSpacing = true ∨ flow.current.getLast? ≠ some ' ' := by
  by_cases hw : flow.hasWords = true
  · exact Or.inr (h.word hw).2.getLast?_ne
  · rcases h.bare (by simpa using hw) hne with hpre | hbare
    · exact Or.inl (StaysRagged.keepsSpacing (Or.inl hpre))
    · exact Or.inl (hbare.staysRagged hne).keepsSpacing

/-- Where everything is settled and the line holds no word, the state is regular. -/
theorem Begun.regular (hbegun : flow.Begun settings) (h : AllSettled flow.page flow.spans)
    (hw : flow.hasWords = false) : flow.Regular settings :=
  ⟨hbegun, h.orderly, fun hw' => absurd (hw.symm.trans hw') Bool.false_ne_true⟩

/-- One line more on the page, with records that are settled on it. -/
theorem AllSettled.concat {page page' : Page} {spans spans' : List Span} {line : Line}
    (h : AllSettled page spans) (hlines : page'.lines = page.lines ++ [line])
    (hset : ∀ i ∈ page.noJustify, i ∈ page'.noJustify)
    (hlast : (page.lines.length : Int) ∈ page'.noJustify ∨ line.getLast? ≠ some ' ')
    (hspans : ∀ r ∈ spans', r ∈ spans ∨ page'.Settled r) (hlinks : page'.links = page.links)
    (himages : ∀ r ∈ page'.images, r ∈ page.images ∨ page'.Settled r) :
    AllSettled page' spans' := by
  refine ⟨h.lines.concat hlines hset hlast, fun r hr => ?_, fun r hr => ?_, fun r hr => ?_⟩
  · exact (hspans r hr).elim (fun hr => (h.spans r hr).mono hlines hset) id
  · rw [hlinks] at hr
    exact (h.links r hr).mono hlines hset
  · exact (himages r hr).elim (fun hr => (h.images r hr).mono hlines hset) id

/-- A blank line more on the page. -/
theorem AllSettled.addLine (h : AllSettled flow.page flow.spans) :
    AllSettled (flow.addLine []).page flow.spans :=
  h.concat rfl (fun _ => id) (Or.inr (by simp)) (fun _ => Or.inl) rfl fun _ => Or.inl

/-- A line of its own is exempt. -/
theorem commitBlock_noJustify (flow : Flow) (s : Text) (group : Group) :
    (∀ i ∈ flow.page.noJustify, i ∈ (flow.commitBlock s group).page.noJustify) ∧
      (flow.lineIndex : Int) ∈ (flow.commitBlock s group).page.noJustify := by
  obtain ⟨hset, -⟩ := commit_noJustify
    (addSpan { flow with current := s } (s.takeWhile isIndentChar).length s.length group)
  exact ⟨fun i hi => LineSet.mem_insert.2 (Or.inr (hset i hi)), LineSet.mem_insert.2 (Or.inl rfl)⟩

/-- The end of a line leaves nothing on the line that is being filled. -/
theorem AllSettled.commitBlock (h : AllSettled flow.page flow.spans) (s : Text) (group : Group) :
    AllSettled (flow.commitBlock s group).page (flow.commitBlock s group).spans := by
  obtain ⟨hset, hexempt⟩ := commitBlock_noJustify flow s group
  have hlines : (flow.commitBlock s group).page.lines = flow.page.lines ++ [s] := rfl
  -- The new spans are those of the line itself, and the line is exempt.
  refine h.concat hlines hset (Or.inl hexempt) (fun r hr => ?_) rfl fun _ => Or.inl
  rcases mem_commit_spans hr with hr | ⟨-, hindex⟩
  · rcases List.mem_append.1 hr with hr | hr
    · exact Or.inl hr
    · obtain rfl := List.mem_singleton.1 hr
      exact Or.inr (settled_of_exempt hlines rfl hexempt)
  · exact Or.inr (settled_of_exempt hlines hindex hexempt)

/-- The state in which a line of preformatted text is committed. -/
theorem exists_commitPre (settings : Settings) (flow : Flow) :
    ∃ ready : Flow, flow.commitPre settings = { ready.commit with preLineOpen := false } ∧
      ready.page = flow.page ∧ ready.context = flow.context ∧
      ∀ r ∈ ready.spans, r ∈ flow.spans ∨ r.line = flow.lineIndex := by
  unfold Flow.commitPre
  dsimp only
  generalize (if flow.preLineOpen = true then flow.current else flow.indent settings) = line
  by_cases hempty : line.isEmpty = true
  · rw [if_pos hempty]
    exact ⟨{ flow with current := line }, rfl, rfl, rfl, fun r hr => Or.inl hr⟩
  · rw [if_neg hempty]
    refine ⟨addSpan { flow with current := line } 0 line.length Group.code, rfl, rfl, rfl, ?_⟩
    intro r hr
    rcases List.mem_append.1 hr with hr | hr
    · exact Or.inl hr
    · obtain rfl := List.mem_singleton.1 hr
      exact Or.inr rfl

/-- A line of preformatted text is exempt. -/
theorem Orderly.commitPre (h : flow.Orderly) (hpre : flow.context.inPre = true) :
    AllSettled (flow.commitPre settings).page (flow.commitPre settings).spans := by
  obtain ⟨ready, hcommit, hpage, hcontext, hspans⟩ := exists_commitPre settings flow
  rw [hcommit]
  obtain ⟨hset, hexempt⟩ := commit_noJustify ready
  have hlines : ready.commit.page.lines = flow.page.lines ++ [ready.current] := by rw [← hpage]; rfl
  have hindex : (flow.lineIndex : Int) ∈ ready.commit.page.noJustify := by
    rw [lineIndex, ← hpage]
    exact hexempt (by simp [BlockContext.keepsSpacing, hcontext, hpre])
  rw [hpage] at hset
  -- Whatever was begun before the block stands on the same line, which is exempt for it too.
  refine ⟨h.lines.concat hlines hset (Or.inl hindex), fun r hr => ?_, fun r hr => ?_,
    fun r hr => ?_⟩
  · rcases mem_commit_spans hr with hr | ⟨-, hr⟩
    · rcases hspans r hr with hr | hr
      · exact (h.spans r hr).settle hlines hset (Or.inl hindex)
      · exact settled_of_exempt hlines hr hindex
    · rw [lineIndex, hpage] at hr
      exact settled_of_exempt hlines hr hindex
  · have hr' : r ∈ flow.page.links := hpage ▸ hr
    exact (h.links r hr').settle hlines hset (Or.inl hindex)
  · have hr' : r ∈ flow.page.images := hpage ▸ hr
    exact (h.images r hr').mono hlines hset

/-- The start of an item: a line with a marker keeps its spacing. -/
theorem AllSettled.atItem (h : AllSettled flow.page flow.spans) :
    (flow.atItem settings).Orderly ∧ (flow.atItem settings).hasWords = false := by
  unfold Flow.atItem
  dsimp only
  by_cases hempty : flow.context.nextMarker.1.isEmpty = true
  · rw [if_pos hempty]
    exact ⟨AllSettled.orderly h, rfl⟩
  · -- The marker stands in a list, and there its line keeps its spacing.
    rw [if_neg hempty]
    have hne : flow.context.nextMarker.1 ≠ [] := by simpa using hempty
    refine ⟨⟨h.lines, fun r hr => ?_, fun r hr => Or.inl (h.links r hr), h.images⟩, rfl⟩
    rcases List.mem_append.1 hr with hr | hr
    · exact Or.inl (h.spans r hr)
    · obtain rfl := List.mem_singleton.1 hr
      exact Or.inr ⟨rfl, List.append_ne_nil_of_right_ne_nil _ hne, Or.inl
        (staysRagged_of_lists (flow.context.isMarker_nextMarker.lists_ne_nil hne))⟩

/-- A piece of preformatted text makes the line keep its spacing. -/
theorem Orderly.addPiece (h : flow.Orderly) (hpre : flow.context.inPre = true) {piece : Text}
    (hne : piece ≠ []) : (flow.addPiece settings piece).Orderly := by
  have hopen : flow.addPiece settings piece =
      { flow with
        current := (if flow.preLineOpen then flow.current else flow.indent settings) ++ piece
        preLineOpen := true } := by
    simp [Flow.addPiece, hne]
  rw [hopen]
  have hkept : ∀ {ρ : Type} [Positioned ρ] {r : ρ}, flow.Kept r → Kept { flow with
      current := (if flow.preLineOpen then flow.current else flow.indent settings) ++ piece
      preLineOpen := true } r := by
    intro ρ _ r hr
    rcases hr with hr | ⟨hindex, -, -⟩
    · exact Or.inl hr
    · exact Or.inr ⟨hindex, List.append_ne_nil_of_right_ne_nil _ hne, Or.inl (Or.inl ⟨hpre, rfl⟩)⟩
  exact ⟨h.lines, fun r hr => hkept (h.spans r hr), fun r hr => hkept (h.links r hr), h.images⟩

/-- **Changes keep states regular.** -/
theorem Regular.change (hc : Change settings flow flow') (h : flow.Regular settings) :
    flow'.Regular settings := by
  have hbegun := h.begun.change hc
  have horderly := h.orderly
  cases hc with
  -- Bookkeeping touches neither lines nor records.
  | quiet =>
    exact ⟨hbegun, ⟨horderly.lines, horderly.spans, horderly.links, horderly.images⟩, h.marked⟩
  | anchor attributes =>
    obtain ⟨anchors, hanchors⟩ := exists_recordAnchor flow attributes
    refine ⟨hbegun, ?_, ?_⟩
    all_goals rw [hanchors]
    · exact ⟨horderly.lines, horderly.spans, horderly.links, horderly.images⟩
    · exact h.marked
  | heading =>
    exact ⟨hbegun, ⟨horderly.lines, horderly.spans, horderly.links, horderly.images⟩, h.marked⟩
  | headingLine =>
    exact ⟨hbegun, ⟨horderly.lines, horderly.spans, horderly.links, horderly.images⟩, h.marked⟩
  | pendingMark =>
    exact ⟨hbegun, ⟨horderly.lines, horderly.spans, horderly.links, horderly.images⟩, h.marked⟩
  -- Where the line ends or none is begun, everything is settled.
  | commit hne => exact hbegun.regular (horderly.commit (h.begun.keepsSpacing_or hne)) rfl
  | blank hnil =>
    exact hbegun.regular (horderly.allSettled hnil).addLine (h.begun.hasWords_eq_false hnil)
  | reset hnil =>
    exact hbegun.regular (horderly.allSettled hnil) (h.begun.hasWords_eq_false hnil)
  | block hnil =>
    exact hbegun.regular (horderly.allSettled hnil) (h.begun.hasWords_eq_false hnil)
  | leavePre hopen =>
    -- No preformatted line is open, so a line that keeps its spacing does so for another reason.
    have hragged : flow.StaysRagged →
        StaysRagged { flow with context := { flow.context with inPre := false } } := by
      rintro (⟨-, hopen'⟩ | hkeeps)
      · exact absurd hopen' (by simp [hopen])
      · exact Or.inr hkeeps
    have hkept : ∀ {ρ : Type} [Positioned ρ] {r : ρ}, flow.Kept r →
        Kept { flow with context := { flow.context with inPre := false } } r := fun hr =>
      hr.grow rfl rfl hragged (List.append_nil _).symm
    exact ⟨hbegun, ⟨horderly.lines, fun r hr => hkept (horderly.spans r hr),
      fun r hr => hkept (horderly.links r hr), horderly.images⟩,
      fun hw hm hnot => h.marked hw hm fun hold => hnot (hragged hold)⟩
  | item hnil =>
    have hatItem : (flow.atItem settings).Orderly ∧ (flow.atItem settings).hasWords = false :=
      (horderly.allSettled hnil).atItem
    obtain ⟨hitem, hw⟩ := hatItem
    exact ⟨hbegun, hitem, fun hw' => absurd (hw.symm.trans hw') Bool.false_ne_true⟩
  -- Words, and the mark that ends inline code like a piece of a word.
  | word hpre word hne hword glue =>
    have hwordly := Wordly.addWord horderly h.begun h.marked hne hword glue
    exact ⟨hbegun, hwordly.orderly, fun _ => hwordly.marked⟩
  | codeEnd hw =>
    have hholds := (h.begun.word hw).2
    have hcode := Wordly.atCodeEnd horderly (Nat.le_of_lt hholds.wordStart_lt) (h.marked hw)
    have hwordly : (flow.atCodeEnd.fitWord settings).Wordly := hcode.fitWord hholds.atCodeEnd
    exact ⟨hbegun, hwordly.orderly, fun _ => hwordly.marked⟩
  | piece hpre piece hne =>
    have hw : (flow.addPiece settings piece).hasWords = false :=
      hbegun.hasWords_of_inPre (by rw [addPiece_context]; exact hpre)
    exact ⟨hbegun, horderly.addPiece hpre hne,
      fun hw' => absurd (hw.symm.trans hw') Bool.false_ne_true⟩
  | commitPre hpre =>
    refine hbegun.regular (horderly.commitPre hpre) ?_
    exact hbegun.hasWords_of_inPre (by rw [commitPre_context]; exact hpre)
  -- Lines of their own: images, rules and the lines of tables, all exempt.
  | image hnil source alt =>
    have hblock := (horderly.allSettled hnil).commitBlock
      (flow.indent settings ++ imageLabel alt) Group.image
    refine hbegun.regular ⟨hblock.lines, hblock.spans, hblock.links, fun r hr => ?_⟩ rfl
    rcases List.mem_append.1 hr with hr | hr
    · exact hblock.images r hr
    · obtain rfl := List.mem_singleton.1 hr
      exact settled_of_exempt rfl rfl (commitBlock_noJustify flow _ _).2
  | rule hnil => exact hbegun.regular ((horderly.allSettled hnil).commitBlock _ _) rfl
  | tableLine hnil line =>
    refine hbegun.regular ?_ (h.begun.hasWords_eq_false hnil)
    exact (horderly.allSettled hnil).concat rfl (fun i hi => LineSet.mem_insert.2 (Or.inr hi))
      (Or.inl (LineSet.mem_insert.2 (Or.inl rfl))) (fun _ => Or.inl) rfl fun _ => Or.inl

/-- **Every state that tokens lead to is regular.** -/
theorem regular_feedAll (settings : Settings) (tokens : List Token) :
    (feedAll {} settings tokens).Regular settings := by
  refine feedAll_invariant ?_ (fun hc h => h.change hc) tokens
  refine (begun_of_empty (Or.inl rfl) rfl rfl).regular ⟨?_, ?_, ?_, ?_⟩ rfl
  · intro n line h
    simp at h
  · exact fun r hr => absurd hr List.not_mem_nil
  · exact fun r hr => absurd hr List.not_mem_nil
  · exact fun r hr => absurd hr List.not_mem_nil

/-! ## (6) The finished page -/

/-- After `flush` no line is begun. -/
theorem flush_current (settings : Settings) (flow : Flow) : (flow.flush settings).current = [] := by
  unfold Flow.flush
  dsimp only
  generalize (if (if flow.context.inPre && flow.preLineOpen then flow.commitPre settings
      else flow).context.table.inTable then _ else _ : Flow) = ended
  by_cases hempty : ended.current.isEmpty = true
  · rw [if_pos hempty]
    simpa using hempty
  · rw [if_neg hempty]
    rfl

/-- A run ends with everything settled. -/
theorem settled_flush (settings : Settings) (tokens : List Token) :
    AllSettled ((feedAll {} settings tokens).flush settings).page
      ((feedAll {} settings tokens).flush settings).spans := by
  have hregular : ((feedAll {} settings tokens).flush settings).Regular settings :=
    (flush_changes _).preserves (fun hc h => h.change hc) (regular_feedAll settings tokens)
  exact hregular.orderly.allSettled (flush_current settings _)

end Flow

/-- **The words of a finished page can be spread.** -/
theorem Flow.spreadable_run (settings : Settings) (tokens : List Token) :
    (run settings tokens).page.Spreadable := by
  have hsettled := settled_flush settings tokens
  obtain ⟨blanks, hblanks, -⟩ := exists_dropTrailingBlanks_append
    ((feedAll {} settings tokens).flush settings).page.lines
  have hline : ∀ {n : Nat} {line : Line}, (run settings tokens).page.lines[n]? = some line →
      ((feedAll {} settings tokens).flush settings).page.lines[n]? = some line := by
    intro n line hmem
    rw [hblanks]
    exact (List.getElem?_append_left (List.getElem?_eq_some_iff.1 hmem).1).trans hmem
  refine ⟨fun n line hmem => hsettled.lines n line (hline hmem), ?_, ?_, ?_⟩
  · intro r hr n line hrline hmem
    by_cases hexempt : (n : Int) ∈ (run settings tokens).page.noJustify
    · exact Or.inl hexempt
    · -- All spans that were merged stand on this line, which is not exempt.
      refine Or.inr ((mergedFrom_mergeSpans hr).onWords fun a ha harow => ?_)
      have ha := (hsettled.spans a ha).canFollow n line (harow.trans hrline) (hline hmem)
      exact ha.resolve_left hexempt
  · intro r hr n line hrline hmem
    exact (hsettled.links r hr).canFollow n line hrline (hline hmem)
  · intro r hr n line hrline hmem
    exact (hsettled.images r hr).canFollow n line hrline (hline hmem)

end ChapterLayout
