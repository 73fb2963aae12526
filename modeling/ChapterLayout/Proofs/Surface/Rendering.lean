import Mathlib.Data.List.Induction
import ChapterLayout.Proofs.Style.Clamp
import ChapterLayout.Proofs.Surface.Styling

/-! # What a terminal shows

A line of a terminal is rendered in runs of characters of one appearance, which end where the
appearance changes or virtual text stands. `Terminal.shownLine` says what has to be seen of it,
character by character:

* **`Appearance.foldl_laidOver`** — of every attribute the last highlight that sets it counts;
* **`Terminal.applyAll_eq`** — what was drawn before the lines were shown last is forgotten;
* **`Terminal.chars_pieces`** — the runs hold every character once and in order, with its
  appearance;
* **`Terminal.writes_chars`**, **`Terminal.see_pieces`** — the pieces are written in the codes of
  their appearances, and a reader of the codes sees their characters;
* **`Terminal.render_shows`** — so a terminal paints exactly what was requested, whichever styler
  it renders with. -/

namespace ChapterLayout

/-! ## (1) Merged appearances -/

namespace Appearance

/-- Appearances merged in order: of every attribute the last one that sets it counts. -/
def merged (l : List Appearance) : Appearance where
  foreground := (l.filterMap (·.foreground)).getLast?
  background := (l.filterMap (·.background)).getLast?
  bold := l.any (·.bold)
  dim := l.any (·.dim)
  underline := l.any (·.underline)
  italic := l.any (·.italic)
  reverse := l.any (·.reverse)
  strikethrough := l.any (·.strikethrough)

/-- One more appearance is laid over those before it. -/
theorem merged_concat (l : List Appearance) (a : Appearance) :
    merged (l ++ [a]) = a.laidOver (merged l) := by
  simp [merged, laidOver]

/-- **Laying appearances over each other** merges them. -/
theorem foldl_laidOver (l : List Appearance) :
    l.foldl (fun base top => top.laidOver base) bare = merged l := by
  induction l using List.reverseRecOn with
  | nil => rfl
  | append_singleton l a ih => rw [List.foldl_append, ih, merged_concat, List.foldl_cons,
      List.foldl_nil]

end Appearance

/-! ## (2) What was drawn -/

namespace DrawRequest

/-- The lines that a request shows. -/
def lines? : DrawRequest → Option (List Line)
  | .lines all => some all
  | _ => none

/-- The highlight that a request paints. -/
def highlight? : DrawRequest → Option DrawnHighlight
  | .highlight line startCol endCol group => some ⟨line, startCol, endCol, group⟩
  | _ => none

/-- The virtual text that a request shows. -/
def virtualText? : DrawRequest → Option DrawnText
  | .virtualText line col s group => some ⟨line, col, s, group⟩
  | _ => none

end DrawRequest

namespace Terminal

/-- The lines that were shown last. -/
def lastLines (requests : List DrawRequest) : List Line :=
  (requests.filterMap DrawRequest.lines?).getLast?.getD []

/-- The requests after those lines were shown. -/
def sinceLines (requests : List DrawRequest) : List DrawRequest :=
  (requests.reverse.takeWhile (·.lines?.isNone)).reverse

/-- **The state of a terminal** holds the lines that were shown last and what was drawn since. -/
theorem applyAll_eq (requests : List DrawRequest) : applyAll {} requests =
    { lines := lastLines requests
      highlights := (sinceLines requests).filterMap DrawRequest.highlight?
      virtualTexts := (sinceLines requests).filterMap DrawRequest.virtualText? } := by
  induction requests using List.reverseRecOn with
  | nil => rfl
  | append_singleton requests request ih =>
    rw [applyAll, List.foldl_append, List.foldl_cons, List.foldl_nil]
    rw [applyAll] at ih
    rw [ih]
    cases request <;>
      simp [apply, lastLines, sinceLines, DrawRequest.lines?, DrawRequest.highlight?,
        DrawRequest.virtualText?]

/-! ## (3) The order of virtual texts -/

/-- Whether virtual texts stand in the order of their columns, and those of one column in the order
in which they were drawn. -/
structure InDrawingOrder (drawn ordered : List DrawnText) : Prop where
  perm : ordered.Perm drawn
  sorted : ordered.Pairwise (·.col ≤ ·.col)
  stable : ∀ col, ordered.filter (·.col == col) = drawn.filter (·.col == col)

/-- The texts sorted by their columns are in drawing order. -/
theorem inDrawingOrder_mergeSort (drawn : List DrawnText) :
    InDrawingOrder drawn (drawn.mergeSort fun a b => a.col ≤ b.col) := by
  have htrans : ∀ a b c : DrawnText, decide (a.col ≤ b.col) = true →
      decide (b.col ≤ c.col) = true → decide (a.col ≤ c.col) = true := by
    simp only [decide_eq_true_eq]
    exact fun a b c => Int.le_trans
  have htotal : ∀ a b : DrawnText, (decide (a.col ≤ b.col) || decide (b.col ≤ a.col)) = true := by
    intro a b
    simpa using Int.le_total a.col b.col
  have hperm := List.mergeSort_perm drawn fun a b => decide (a.col ≤ b.col)
  refine ⟨hperm, ?_, fun col => ?_⟩
  · exact (List.pairwise_mergeSort htrans htotal drawn).imp of_decide_eq_true
  · -- Those of one column are in order already, so the sort keeps them as they are.
    have hcol : (drawn.filter (·.col == col)).Pairwise
        fun a b => decide (a.col ≤ b.col) = true := by
      refine List.pairwise_of_forall_mem_list fun a ha b hb => ?_
      rw [beq_iff_eq.1 (List.mem_filter.1 ha).2, beq_iff_eq.1 (List.mem_filter.1 hb).2]
      exact decide_eq_true (Int.le_refl col)
    have hsub := (List.sublist_mergeSort htrans htotal hcol List.filter_sublist).filter
      (·.col == col)
    simp only [List.filter_filter, Bool.and_self] at hsub
    exact (hsub.eq_of_length (hperm.filter _).length_eq.symm).symm

/-- **Sorted lists** that agree in every column are the same. -/
theorem eq_of_filter_col {l m : List DrawnText} (hl : l.Pairwise (·.col ≤ ·.col))
    (hm : m.Pairwise (·.col ≤ ·.col))
    (h : ∀ col, l.filter (·.col == col) = m.filter (·.col == col)) : l = m := by
  induction l generalizing m with
  | nil =>
    cases m with
    | nil => rfl
    | cons b m => simpa using h b.col
  | cons a l ih =>
    cases m with
    | nil => simpa using h a.col
    | cons b m =>
      -- Each first text stands in the other list, so no column comes before the other.
      have hmem : ∀ {c : DrawnText} {l m : List DrawnText}, c ∈ l →
          l.filter (·.col == c.col) = m.filter (·.col == c.col) → c ∈ m := by
        intro c l m hc hfilter
        refine (List.mem_filter.1 (hfilter ▸ List.mem_filter.2 ⟨hc, ?_⟩)).1
        exact beq_self_eq_true _
      rw [List.pairwise_cons] at hl hm
      have hab : a.col = b.col := by
        have ha : a ∈ b :: m := hmem List.mem_cons_self (h a.col)
        have hb : b ∈ a :: l := hmem List.mem_cons_self (h b.col).symm
        refine Int.le_antisymm ?_ ?_
        · rcases List.mem_cons.1 hb with rfl | hb
          · exact Int.le_refl _
          · exact hl.1 b hb
        · rcases List.mem_cons.1 ha with rfl | ha
          · exact Int.le_refl _
          · exact hm.1 a ha
      have hfirst := h a.col
      rw [List.filter_cons, if_pos (beq_self_eq_true _), List.filter_cons,
        if_pos (beq_iff_eq.2 hab.symm)] at hfirst
      obtain ⟨rfl, -⟩ := List.cons.inj hfirst
      refine congrArg (a :: ·) (ih hl.2 hm.2 fun col => ?_)
      have hrest := h col
      rw [List.filter_cons, List.filter_cons] at hrest
      split at hrest
      · exact (List.cons.inj hrest).2
      · exact hrest

/-- There is just one such order. -/
theorem InDrawingOrder.unique {drawn ordered ordered' : List DrawnText}
    (h : InDrawingOrder drawn ordered) (h' : InDrawingOrder drawn ordered') : ordered = ordered' :=
  eq_of_filter_col h.sorted h'.sorted fun col => (h.stable col).trans (h'.stable col).symm

/-! ## (4) Lines -/

variable {highlights : List DrawnHighlight} {texts : List DrawnText} {line : Line}

/-- The characters of the virtual texts that stand before a column of a line of the given length,
each text in the appearance of its group. -/
def shownTexts (texts : List DrawnText) (length col : Int) : List StyledChar :=
  (texts.filter fun t => clampColumn t.col length == col).flatMap fun t =>
    styled t.text (Appearance.ofGroup t.group)

/-- The appearance of a column: those of the groups of all highlights over it, merged. -/
def shownAppearance (highlights : List DrawnHighlight) (col : Int) : Appearance :=
  Appearance.merged ((highlights.filter fun h => h.startCol ≤ col ∧ col < h.endCol).map fun h =>
    Appearance.ofGroup h.group)

/-- What has to be seen of a line: every character in its appearance, after the virtual texts that
stand before its column, and the virtual texts at the end of the line. -/
def shownLine (highlights : List DrawnHighlight) (texts : List DrawnText) (line : Line) :
    List StyledChar :=
  (line.zipIdx.flatMap fun (c, i) =>
    shownTexts texts line.length i ++ [(c, shownAppearance highlights i)]) ++
  shownTexts texts line.length line.length

/-- The characters of pieces of text. -/
def chars (l : List Styled) : List StyledChar := l.flatMap fun (s, a) => styled s a

/-- No pieces have no characters. -/
@[simp] theorem chars_nil : chars [] = [] := rfl

/-- The characters of pieces are those of the first one and those of the rest. -/
@[simp] theorem chars_cons (s : Text) (a : Appearance) (l : List Styled) :
    chars ((s, a) :: l) = styled s a ++ chars l := rfl

/-- The characters of pieces are those of the first ones and those of the others. -/
@[simp] theorem chars_append (l m : List Styled) : chars (l ++ m) = chars l ++ chars m :=
  List.flatMap_append

/-- A column is rendered in the appearance of its highlights, merged. -/
theorem appearanceAt_eq (highlights : List DrawnHighlight) (col : Int) :
    appearanceAt highlights col = shownAppearance highlights col := by
  rw [shownAppearance, ← Appearance.foldl_laidOver, List.foldl_map, List.foldl_filter]
  simp only [appearanceAt, decide_eq_true_eq]

/-- The virtual texts before a column are rendered in the order of their columns. -/
theorem chars_virtualAt (texts : List DrawnText) (length col : Int) :
    chars (virtualAt texts length col) =
      shownTexts (texts.mergeSort fun a b => a.col ≤ b.col) length col := by
  rw [chars, virtualAt, List.flatMap_map]
  rfl

/-- **The runs of a line** hold every character once and in order, with its appearance, and the
virtual texts before it. -/
theorem chars_pieces (run : Text) (a : Appearance) (last : List Styled) (l : List Column) :
    chars (pieces run a last l) = styled run a ++
      (l.flatMap fun column => chars column.before ++ [(column.char, column.appearance)]) ++
      chars last := by
  induction l generalizing run a with
  | nil => simp [pieces]
  | cons column l ih =>
    rw [pieces]
    split
    · -- The run goes on.
      rename_i hgoes
      rw [Bool.and_eq_true, List.isEmpty_iff, beq_iff_eq] at hgoes
      rw [ih, styled_append, List.flatMap_cons, hgoes.1, hgoes.2]
      simp [styled]
    · rw [List.cons_append, chars_cons, chars_append, ih, List.flatMap_cons]
      simp [styled]

/-- The columns of a line from a number on. -/
theorem flatMap_columns (highlights : List DrawnHighlight) (texts : List DrawnText) (length : Int)
    (k : Nat) (line : Line) :
    ((columns highlights texts length k line).flatMap fun column =>
      chars column.before ++ [(column.char, column.appearance)]) =
      (line.zipIdx k).flatMap fun (c, i) =>
        shownTexts (texts.mergeSort fun a b => a.col ≤ b.col) length i ++
          [(c, shownAppearance highlights i)] := by
  induction line generalizing k with
  | nil => rfl
  | cons c line ih =>
    have hnext : ((k : Int) + 1) = ((k + 1 : Nat) : Int) := by omega
    rw [columns, List.flatMap_cons, List.zipIdx_cons, List.flatMap_cons, hnext, ih,
      chars_virtualAt, appearanceAt_eq]

/-- The pieces that a line is rendered in. -/
def linePieces (highlights : List DrawnHighlight) (texts : List DrawnText) (line : Line) :
    List Styled :=
  pieces [] .bare (virtualAt texts line.length line.length)
    (columns highlights texts line.length 0 line)

/-- The pieces of a line have the characters that have to be seen of it. -/
theorem chars_linePieces : chars (linePieces highlights texts line) =
    shownLine highlights (texts.mergeSort fun a b => a.col ≤ b.col) line := by
  have hcolumns := flatMap_columns highlights texts line.length 0 line
  rw [linePieces, chars_pieces, chars_virtualAt, shownLine, ← hcolumns]
  rfl

section Codes

variable {codes : Appearance → Text} {reset : Text} {see : Appearance → Text → List StyledChar}

/-- Whether a text is written as pieces of styled characters: each piece by the styler in its
appearance, and as it is if it is empty or its appearance is bare. -/
inductive Writes (style : Styler) : Text → List StyledChar → Prop
  | nil : Writes style [] []
  | piece (s : Text) (a : Appearance) {t : Text} {l : List StyledChar} :
    Writes style t l → Writes style (style.paint a s ++ t) (styled s a ++ l)

/-- Pieces of text are written for their characters. -/
theorem writes_chars (style : Styler) (l : List Styled) :
    Writes style (l.flatMap fun (s, a) => style.paint a s) (chars l) := by
  induction l with
  | nil => exact .nil
  | cons piece l ih => exact .piece piece.1 piece.2 ih

/-- **Pieces of text** without escapes are seen as their characters. -/
theorem see_pieces {style : Styler}
    (hstyle : ∀ a s, a ≠ .bare → style a s = codes a ++ s ++ reset)
    (hsee : Reads codes reset see) {l : List Styled} (h : ∀ c ∈ chars l, c.1 ≠ '\x1b') :
    see .bare (l.flatMap fun (s, a) => style.paint a s) = chars l := by
  induction l with
  | nil => exact hsee.nil .bare
  | cons piece l ih =>
    obtain ⟨s, a⟩ := piece
    rw [chars_cons] at h
    have hs : '\x1b' ∉ s := fun hmem =>
      h ('\x1b', a) (List.mem_append_left _ (List.mem_map.2 ⟨_, hmem, rfl⟩)) rfl
    rw [List.flatMap_cons, hsee.paint hstyle a hs, chars_cons]
    exact congrArg (styled s a ++ ·) (ih fun c hc => h c (List.mem_append_right _ hc))

/-! ## (5) The terminal -/

/-- **A terminal paints exactly what was requested.** It renders the lines that were shown last,
each as a text that is written for the characters that have to be seen of the line: the characters
of the line once and in order, each in the merged appearance of the highlights drawn over it since
then, and the virtual texts drawn on the line since then, before their columns and in their order.
If the styler puts text between the codes of its appearance and a reset, and no character is an
escape, then whoever reads the codes sees just that. -/
theorem render_shows (style : Styler)
    (hstyle : ∀ a s, a ≠ .bare → style a s = codes a ++ s ++ reset)
    (hsee : Reads codes reset see) (requests : List DrawRequest) :
    let drawn := sinceLines requests
    let rendered := (applyAll {} requests).renderWith style
    rendered.length = (lastLines requests).length ∧
    ∀ (i : Nat) (line : Line), (lastLines requests)[i]? = some line →
      let highlights := (drawn.filterMap DrawRequest.highlight?).filter (·.line == (i : Int))
      ∃ s texts, rendered[i]? = some s ∧
        InDrawingOrder
          ((drawn.filterMap DrawRequest.virtualText?).filter (·.line == (i : Int))) texts ∧
        Writes style s (shownLine highlights texts line) ∧
        ((∀ c ∈ shownLine highlights texts line, c.1 ≠ '\x1b') →
          see .bare s = shownLine highlights texts line) := by
  intro drawn rendered
  have hrendered : rendered = (applyAll {} requests).renderWith style := rfl
  -- What counts are the requests since the lines were set.
  rw [applyAll_eq] at hrendered
  refine ⟨by simp [hrendered, renderWith], ?_⟩
  intro i line hline highlights
  have hitem : rendered[i]? = some ((linePieces highlights
      ((drawn.filterMap DrawRequest.virtualText?).filter (·.line == (i : Int))) line).flatMap
        fun (s, a) => style.paint a s) := by
    simp only [hrendered, renderWith, List.getElem?_map, List.getElem?_zipIdx, hline,
      Option.map_some, Nat.zero_add]
    rfl
  -- The pieces of the line hold the characters that have to be seen, and are written and read as
  -- they are.
  refine ⟨_, _, hitem, inDrawingOrder_mergeSort _, ?_, fun h => ?_⟩
  · rw [← chars_linePieces]
    exact writes_chars style _
  · rw [← chars_linePieces] at h ⊢
    exact see_pieces hstyle hsee h

end Codes

/-- In escape sequences: two highlights that overlap, three virtual texts at the end of a line that
were not drawn in the order of their columns, and what was drawn before the line was shown or on
another line. -/
theorem render_shows_overlap :
    let requests : List DrawRequest := [.highlight 0 0 2 Group.title, .lines ["abc".toList],
      .virtualText 0 9 "x".toList Group.plain, .highlight 0 (-1) 2 StyleKind.h1.value,
      .highlight 0 1 7 StyleKind.h2.value, .virtualText 0 3 "y".toList Group.noteIndicator,
      .virtualText 0 9 "z".toList Group.plain, .highlight 1 0 1 Group.title]
    (∀ a s, a ≠ .bare → Escapes.style a s = Escapes.codes a ++ s ++ Escapes.reset) ∧
      Reads Escapes.codes Escapes.reset (Escapes.readFrom .text) ∧
      (lastLines requests)[0]? = some "abc".toList ∧ ∃ s,
      (applyAll {} requests).render[0]? = some s ∧
        Escapes.readFrom .text .bare s = [('a', { foreground := some .magenta, bold := true }),
          ('b', { foreground := some .blue, bold := true }),
          ('c', { foreground := some .blue, bold := true }),
          ('y', { foreground := some .yellow, bold := true }), ('x', {}), ('z', {})] := by
  intro requests
  have hline : (lastLines requests)[0]? = some "abc".toList := by decide
  have hstyle : ∀ a s, a ≠ .bare →
      Escapes.style a s = Escapes.codes a ++ s ++ Escapes.reset := fun _ _ _ => rfl
  obtain ⟨s, texts, hs, horder, -, hread⟩ :=
    (render_shows Escapes.style hstyle Escapes.reads requests).2 0 _ hline
  have htexts : texts = [⟨0, 3, "y".toList, Group.noteIndicator⟩, ⟨0, 9, "x".toList, Group.plain⟩,
      ⟨0, 9, "z".toList, Group.plain⟩] := by
    refine horder.unique ⟨by decide +kernel, by decide, fun col => ?_⟩
    have hdrawn : ((sinceLines requests).filterMap DrawRequest.virtualText?).filter
        (·.line == ((0 : Nat) : Int)) = [⟨0, 9, "x".toList, Group.plain⟩,
          ⟨0, 3, "y".toList, Group.noteIndicator⟩, ⟨0, 9, "z".toList, Group.plain⟩] := by
      decide +kernel
    rw [hdrawn]
    by_cases hx : (9 : Int) = col
    · subst hx
      decide +kernel
    · by_cases hy : (3 : Int) = col
      · subst hy
        decide +kernel
      · simp [hx, hy]
  subst htexts
  refine ⟨hstyle, Escapes.reads, hline, s, hs, ?_⟩
  rw [hread (by decide +kernel)]
  decide +kernel

end Terminal

end ChapterLayout
