import ChapterLayout.Justify.Spread
import ChapterLayout.Proofs.Text.Spaces

/-! # A line as words and gaps

A line that does not end in a space is a list of words, each with the gap before it. Spreading the
line adds spaces to the gaps, so both the line and the line spread are read off one list of
stretches:

* **`Stretch`** — a word, the gap before it and what is added to the gap;
* **`laid`** — the line of a list of stretches, with gaps of a given width;
* **`exists_stretches`** — every line without a space at its end is the line of a list of stretches;
* **`spread_eq`** — spreading such a line shares the missing columns out among its gaps;
* **`exists_stretches_of_spread`** — hence the line spread has the same words and takes exactly the
  columns that were asked for. -/

namespace ChapterLayout

/-- A word of a line, with the spaces before it and the spaces added there when the line is
spread. -/
structure Stretch where
  gap : Nat
  added : Nat
  word : Text

namespace Stretch

/-- The spaces before the word once the line is spread. -/
def wide (s : Stretch) : Nat := s.gap + s.added

/-- The line of the words, each after a gap of the given width. -/
def laid (width : Stretch → Nat) (l : List Stretch) : Text :=
  l.flatMap fun s => List.replicate (width s) ' ' ++ s.word

/-- Whether the stretches are those of a line: all words are words, and between two of them there is
a space. -/
structure Separated (l : List Stretch) : Prop where
  word : ∀ s ∈ l, s.word.IsWord
  gap_pos : ∀ s ∈ l.tail, 0 < s.gap

/-- The runs of a line that starts at the given column. -/
def runs (column : Nat) : List Stretch → List Run
  | [] => []
  | s :: l => ⟨column + s.gap, s.word⟩ :: runs (column + s.gap + s.word.length) l

/-- The word placed behind column `a` of the line as it was and behind column `b` of the line
spread. -/
def place (a b : Nat) (s : Stretch) : PlacedWord where
  word := s.word
  origStart := (a + s.gap : Nat)
  origEnd := (a + s.gap + s.word.length : Nat)
  newStart := (b + s.wide : Nat)
  newEnd := (b + s.wide + s.word.length : Nat)

/-- The words placed behind column `a` of the line as it was and behind column `b` of the line
spread. -/
def placed (a b : Nat) : List Stretch → List PlacedWord
  | [] => []
  | s :: l => s.place a b :: placed (a + s.gap + s.word.length) (b + s.wide + s.word.length) l

/-- The columns of a line and of the line spread. -/
def columnMap (l : List Stretch) : ColumnMap :=
  ⟨placed 0 0 l, (laid gap l).length, (laid wide l).length⟩

/-- The stretches with `extra` spaces added to every gap, and one more to the first `remainder`
gaps. -/
def share (extra : Nat) : (remainder : Nat) → List Stretch → List Stretch
  | _, [] => []
  | remainder, s :: l =>
    { s with added := extra + min remainder 1 } :: share extra (remainder - 1) l

variable {width : Stretch → Nat} {s : Stretch} {l : List Stretch} {extra remainder a b : Nat}

/-! ## (1) Lines of stretches -/

/-- A gap without added spaces is as wide as before. -/
theorem wide_of_added (h : s.added = 0) : s.wide = s.gap := by rw [wide, h, Nat.add_zero]

/-- No stretches make an empty line. -/
@[simp] theorem laid_nil (width : Stretch → Nat) : laid width [] = [] := rfl

/-- A line starts with its first gap and word. -/
theorem laid_cons (width : Stretch → Nat) (s : Stretch) (l : List Stretch) :
    laid width (s :: l) = List.replicate (width s) ' ' ++ (s.word ++ laid width l) := by
  rw [laid, List.flatMap_cons, List.append_assoc, laid]

/-- The length of a line is that of its first gap and word and of the rest. -/
theorem laid_length_cons (width : Stretch → Nat) (s : Stretch) (l : List Stretch) :
    (laid width (s :: l)).length = width s + s.word.length + (laid width l).length := by
  rw [laid_cons, List.length_append, List.length_replicate, List.length_append, Nat.add_assoc]

/-- The stretches behind the first one are those of a line, too. -/
theorem Separated.tail (h : Separated (s :: l)) : Separated l where
  word t ht := h.word t (List.mem_cons_of_mem s ht)
  gap_pos t ht := h.gap_pos t (List.mem_of_mem_tail ht)

/-- The first word of a line is a word. -/
theorem Separated.head (h : Separated (s :: l)) : s.word.IsWord := h.word s List.mem_cons_self

/-- A line with a gap before its first word starts with a space. -/
theorem laid_head? (hpos : ∀ s ∈ l, 0 < width s) (c : Char) (hc : (laid width l).head? = some c) :
    Text.isSpace c = true := by
  cases l with
  | nil => simp at hc
  | cons s l =>
    obtain ⟨n, hn⟩ := Nat.exists_eq_add_one.2 (hpos s List.mem_cons_self)
    rw [laid_cons, hn] at hc
    obtain rfl := Option.some.inj hc
    rfl

/-- **The words of a line** do not depend on its gaps. -/
theorem Separated.words_laid (h : Separated l) (hwidth : ∀ s, s.gap ≤ width s) :
    Text.words Text.isSpace (laid width l) = l.map (·.word) := by
  induction l with
  | nil => rfl
  | cons s l ih =>
    have hpos : ∀ t ∈ l, 0 < width t := fun t ht => Nat.lt_of_lt_of_le (h.gap_pos t ht) (hwidth t)
    rw [laid_cons, Text.words_spaces_append, h.head.words_append (laid_head? hpos), ih h.tail,
      List.map_cons]

/-- The gaps of a line are those that are not empty. -/
theorem Separated.gaps_laid (h : Separated l) (width : Stretch → Nat) :
    Text.gaps (laid width l) = (l.map width).filter (· ≠ 0) := by
  induction l with
  | nil => rfl
  | cons s l ih =>
    rw [laid_cons, h.head.gaps_spaces_append, ih h.tail, ← List.filter_append,
      List.singleton_append, List.map_cons]

/-- The spaces at the start of a line are those before its first word. -/
theorem Separated.takeWhile_laid (h : Separated (s :: l)) (width : Stretch → Nat) :
    (laid width (s :: l)).takeWhile Text.isSpace = List.replicate (width s) ' ' := by
  obtain ⟨c, w, hw⟩ := List.exists_cons_of_ne_nil h.head.ne_nil
  have hc : Text.isSpace c = false := h.head.letter c (hw ▸ List.mem_cons_self)
  have hspaces : ∀ d ∈ List.replicate (width s) ' ', Text.isSpace d = true := by
    intro d hd
    rw [List.eq_of_mem_replicate hd]
    rfl
  rw [laid_cons, hw, List.takeWhile_append_of_pos hspaces, List.cons_append,
    List.takeWhile_cons_of_neg (by simp [hc]), List.append_nil]

/-- What follows the spaces at the start of a line. -/
theorem Separated.dropWhile_laid (h : Separated (s :: l)) (width : Stretch → Nat) :
    (laid width (s :: l)).dropWhile Text.isSpace = s.word ++ laid width l := by
  have hparts := List.takeWhile_append_dropWhile (p := Text.isSpace) (l := laid width (s :: l))
  rw [h.takeWhile_laid] at hparts
  exact List.append_cancel_left (hparts.trans (laid_cons width s l))

/-! ## (2) The stretches of a line -/

/-- There are as many runs as stretches. -/
@[simp] theorem length_runs (column : Nat) (l : List Stretch) :
    (runs column l).length = l.length := by
  induction l generalizing column with
  | nil => rfl
  | cons s l ih => rw [runs, List.length_cons, ih, List.length_cons]

/-- No stretches are those of the empty line. -/
theorem separated_nil : Separated [] := ⟨by simp, by simp⟩

/-- A stretch before those of a line makes a line if a space is before each of them. -/
theorem separated_cons (hword : s.word.IsWord) (hpos : ∀ t ∈ l, 0 < t.gap) (h : Separated l) :
    Separated (s :: l) :=
  ⟨List.forall_mem_cons.2 ⟨hword, h.word⟩, hpos⟩

/-- **Every line is a line of stretches,** but for the spaces at its end, and its runs are those of
the stretches. -/
theorem exists_stretches (s : Text) : ∃ l n, Separated l ∧ (∀ t ∈ l, t.added = 0) ∧
    s = laid gap l ++ List.replicate n ' ' ∧ ∀ column, Run.ofText column s = runs column l := by
  -- From the end of the line: a character widens the first gap, joins the first word or starts one.
  induction s with
  | nil => exact ⟨[], 0, separated_nil, by simp, rfl, fun _ => rfl⟩
  | cons c s ih =>
    obtain ⟨l, n, hsep, hadded, rfl, hruns⟩ := ih
    by_cases hc : Text.isSpace c = true
    · obtain rfl : c = ' ' := by simpa [Text.isSpace] using hc
      cases l with
      | nil =>
        refine ⟨[], n + 1, hsep, hadded, rfl, fun column => ?_⟩
        rw [Run.ofText, if_pos hc, hruns]
        rfl
      | cons t l =>
        -- The gap before the first word gets wider.
        refine ⟨{ t with gap := t.gap + 1 } :: l, n,
          separated_cons hsep.head hsep.gap_pos hsep.tail,
          List.forall_mem_cons.2 (List.forall_mem_cons.1 hadded), ?_, fun column => ?_⟩
        · rw [laid_cons, laid_cons, List.replicate_succ, List.cons_append, List.cons_append]
        · rw [Run.ofText, if_pos hc, hruns, runs, runs]
          simp only [Nat.add_assoc, Nat.add_comm 1]
    · have hletter : Text.isSpace c = false := by simpa using hc
      have hsingle : Text.IsWord [c] := ⟨List.cons_ne_nil c [], by simpa using hletter⟩
      cases l with
      | nil =>
        refine ⟨[⟨0, 0, [c]⟩], n, separated_cons hsingle (by simp) hsep, by simp, rfl, ?_⟩
        intro column
        rw [Run.ofText, if_neg hc, hruns]
        rfl
      | cons t l =>
        by_cases hgap : t.gap = 0
        · -- The letter is the first one of the first word.
          have hword : Text.IsWord (c :: t.word) :=
            ⟨List.cons_ne_nil c _, List.forall_mem_cons.2 ⟨hletter, hsep.head.letter⟩⟩
          refine ⟨{ t with word := c :: t.word } :: l, n,
            separated_cons hword hsep.gap_pos hsep.tail,
            List.forall_mem_cons.2 (List.forall_mem_cons.1 hadded), ?_, fun column => ?_⟩
          · rw [laid_cons, laid_cons, hgap]
            rfl
          · rw [Run.ofText, if_neg hc, hruns, runs, runs, hgap]
            simp only [Nat.add_zero, List.length_cons, if_true, Nat.add_assoc, Nat.add_comm 1]
        · -- The letter is a word of its own.
          refine ⟨⟨0, 0, [c]⟩ :: t :: l, n, separated_cons hsingle ?_ hsep,
            List.forall_mem_cons.2 ⟨rfl, hadded⟩, rfl, fun column => ?_⟩
          · exact List.forall_mem_cons.2 ⟨Nat.pos_of_ne_zero hgap, hsep.gap_pos⟩
          · rw [Run.ofText, if_neg hc, hruns, runs, runs]
            have hstart : column + 1 + t.gap ≠ column + 1 := by omega
            simp only [if_neg hstart]
            rfl

/-! ## (3) Spreading -/

/-- What a line takes is the sum of its gaps and the columns of its words. -/
theorem width_laid_cons (width : Stretch → Nat) (s : Stretch) (l : List Stretch) :
    Text.width (laid width (s :: l)) =
      width s + Text.width s.word + Text.width (laid width l) := by
  rw [laid_cons, Text.width_append, Text.width_replicate_space, Text.width_append, Nat.add_assoc]

/-- A property that does not look at what is added to a gap is kept when the gaps grow. -/
theorem forall_mem_share {P : Stretch → Prop} (hP : ∀ s n, P s → P { s with added := n })
    (h : ∀ s ∈ l, P s) (extra remainder : Nat) : ∀ s ∈ share extra remainder l, P s := by
  induction l generalizing remainder with
  | nil => exact h
  | cons s l ih =>
    obtain ⟨hs, hl⟩ := List.forall_mem_cons.1 h
    exact List.forall_mem_cons.2 ⟨hP s _ hs, ih hl (remainder - 1)⟩

/-- The stretches of a line are still those of a line when all gaps but the first grow. -/
theorem Separated.share (h : Separated (s :: l)) (extra remainder : Nat) :
    Separated (s :: share extra remainder l) := by
  have hword := forall_mem_share (P := fun t => t.word.IsWord) (fun _ _ => id) h.tail.word
  have hpos := forall_mem_share (P := fun t => 0 < t.gap) (fun _ _ => id) h.gap_pos
  exact ⟨List.forall_mem_cons.2 ⟨h.head, hword extra remainder⟩, hpos extra remainder⟩

/-- What is added to the gaps does not matter for the line as it was. -/
theorem laid_gap_share (extra remainder : Nat) (l : List Stretch) :
    laid gap (share extra remainder l) = laid gap l := by
  induction l generalizing remainder with
  | nil => rfl
  | cons s l ih => rw [share, laid_cons, laid_cons, ih]

/-- Added spaces leave the runs as they are. -/
theorem runs_share (extra remainder column : Nat) (l : List Stretch) :
    runs column (share extra remainder l) = runs column l := by
  induction l generalizing remainder column with
  | nil => rfl
  | cons s l ih => rw [share, runs, runs, ih]

/-- **The line takes what is added more columns.** -/
theorem width_laid_share (extra : Nat) (h : remainder ≤ l.length) :
    Text.width (laid wide (share extra remainder l)) =
      Text.width (laid gap l) + extra * l.length + remainder := by
  induction l generalizing remainder with
  | nil =>
    obtain rfl : remainder = 0 := Nat.le_zero.1 h
    rfl
  | cons s l ih =>
    have hle : remainder - 1 ≤ l.length := Nat.sub_le_of_le_add h
    have hl := ih hle
    rw [share, width_laid_cons, width_laid_cons, hl, List.length_cons, Nat.mul_succ, wide]
    dsimp only
    omega

/-- The gaps that are computed from the runs of a line are those that are shared out. -/
theorem gapWidths_eq (extra remainder stop : Nat) (l : List Stretch) :
    gapWidths extra remainder stop (runs stop l) =
      (share extra remainder l).map fun s => (s.wide : Int) := by
  induction l generalizing remainder stop with
  | nil => cases remainder <;> rfl
  | cons s l ih =>
    have hstop : Run.stop ⟨stop + s.gap, s.word⟩ = stop + s.gap + s.word.length := rfl
    cases remainder with
    | zero =>
      rw [runs, gapWidths, hstop, ih, share, List.map_cons, wide]
      dsimp only
      congr 1
      omega
    | succ remainder =>
      rw [runs, gapWidths, hstop, ih, share, List.map_cons, wide, Nat.add_sub_cancel]
      dsimp only
      congr 1
      omega

/-- The runs of a line with the gaps of the line spread. -/
def widened (column : Nat) (l : List Stretch) : List (Int × Run) :=
  (l.map fun s => (s.wide : Int)).zip (runs column l)

/-- The runs with wider gaps spell the line spread. -/
theorem spreadText_widened (column : Nat) (l : List Stretch) :
    spreadText (widened column l) = laid wide l := by
  induction l generalizing column with
  | nil => rfl
  | cons s l ih =>
    have h := ih (column + s.gap + s.word.length)
    rw [spreadText, widened] at h ⊢
    rw [List.map_cons, runs, List.zip_cons_cons, List.flatMap_cons, h, laid_cons, List.append_assoc]
    rfl

/-- The runs with wider gaps are placed as the words of the stretches. -/
theorem placeRuns_widened (a b : Nat) (l : List Stretch) :
    placeRuns b (widened a l) = placed a b l := by
  induction l generalizing a b with
  | nil => rfl
  | cons s l ih =>
    have h := ih (a + s.gap + s.word.length) (b + s.wide + s.word.length)
    rw [widened] at h ⊢
    rw [List.map_cons, runs, List.zip_cons_cons, placeRuns, placed]
    simp only [place, Int.natCast_add, Run.stop] at h ⊢
    rw [h]

/-- The first gap and word come before the others. -/
theorem widened_cons (column : Nat) (s : Stretch) (l : List Stretch) :
    widened column (s :: l) = ((s.wide : Int), ⟨column + s.gap, s.word⟩) ::
      widened (column + s.gap + s.word.length) l := rfl

/-- Stretches that share spaces have the gaps that are handed out. -/
theorem widened_share (extra remainder column : Nat) (l : List Stretch) :
    widened column (share extra remainder l) =
      (gapWidths extra remainder column (runs column l)).zip (runs column l) := by
  rw [widened, runs_share, gapWidths_eq]

/-- The whole of a number of columns is added when its quotient goes to every gap and its remainder
to the first gaps. -/
theorem width_laid_share_div {missing : Int} (hmissing : 0 ≤ missing) (hl : l ≠ []) :
    (Text.width (laid wide (share (missing / l.length).toNat (missing % l.length).toNat l)) : Int) =
      Text.width (laid gap l) + missing := by
  have hpos : (0 : Int) < l.length := Int.natCast_pos.2 (List.length_pos_iff.2 hl)
  have hquotient : 0 ≤ missing / l.length := Int.ediv_nonneg hmissing (Int.le_of_lt hpos)
  have hremainder : 0 ≤ missing % l.length := Int.emod_nonneg missing (Int.ne_of_gt hpos)
  have hlt : missing % l.length < l.length := Int.emod_lt_of_pos missing hpos
  have hsum : missing / l.length * l.length + missing % l.length = missing :=
    Int.mul_comm _ _ ▸ Int.mul_ediv_add_emod missing l.length
  rw [width_laid_share _ (by omega)]
  simp only [Int.natCast_add, Int.natCast_mul, Int.toNat_of_nonneg hquotient,
    Int.toNat_of_nonneg hremainder]
  omega

/-- The stretches of a line with the missing columns shared out among all gaps but the first. -/
def sharedOut (missing : Int) : List Stretch → List Stretch
  | [] => []
  | s :: l => s :: Stretch.share (missing / l.length).toNat (missing % l.length).toNat l

/-- The gaps of the line are the same when spaces were shared out. -/
theorem laid_gap_sharedOut (missing : Int) (l : List Stretch) :
    laid gap (sharedOut missing l) = laid gap l := by
  cases l with
  | nil => rfl
  | cons s l => rw [sharedOut, laid_cons, laid_gap_share, laid_cons]

/-- Stretches are still those of a line when spaces were shared out. -/
theorem Separated.sharedOut (h : Separated l) (missing : Int) :
    Separated (sharedOut missing l) := by
  cases l with
  | nil => exact h
  | cons s l => exact h.share _ _

/-- The first gap stays, so the gaps behind it take all the missing columns. -/
theorem width_laid_sharedOut {missing : Int} (hmissing : 0 ≤ missing) (hadded : s.added = 0)
    (hl : l ≠ []) : (Text.width (laid wide (sharedOut missing (s :: l))) : Int) =
      Text.width (laid gap (s :: l)) + missing := by
  have hwide := wide_of_added hadded
  have hrest := width_laid_share_div hmissing hl
  rw [sharedOut, width_laid_cons, width_laid_cons]
  omega

variable {line : Line} {maxWidth : Int} {first second : Stretch}

/-- A line without a space at its end is the line of its stretches. -/
theorem exists_laid (hline : line.getLast? ≠ some ' ') :
    ∃ l, Separated l ∧ (∀ t ∈ l, t.added = 0) ∧ line = laid gap l ∧
      ∀ column, Run.ofText column line = runs column l := by
  obtain ⟨l, n, hsep, hadded, heq, hruns⟩ := exists_stretches line
  obtain rfl : n = 0 := by
    refine Nat.eq_zero_of_not_pos fun hpos => hline ?_
    obtain ⟨m, rfl⟩ := Nat.exists_eq_add_one.2 hpos
    rw [heq, List.replicate_succ', ← List.append_assoc, List.getLast?_concat]
  rw [List.replicate_zero, List.append_nil] at heq
  exact ⟨l, hsep, hadded, heq, hruns⟩

/-- **The missing columns are shared out among the gaps.** -/
theorem spreadGaps?_eq (hruns : Run.ofText 0 line = runs 0 (first :: second :: l))
    (hadded : first.added = 0) (hmissing : 0 < maxWidth - Text.width line) :
    spreadGaps? line maxWidth = some
      (widened 0 (sharedOut (maxWidth - Text.width line) (first :: second :: l))) := by
  have hextra : 0 ≤ (maxWidth - Text.width line) / (second :: l).length :=
    Int.ediv_nonneg (Int.le_of_lt hmissing) (Int.natCast_nonneg _)
  have hwide := wide_of_added hadded
  rw [sharedOut, widened_cons, widened_share, Int.toNat_of_nonneg hextra, hwide, spreadGaps?, hruns]
  simp only [runs, List.length_cons, length_runs, Run.stop, Nat.zero_add]
  rw [if_neg (Int.not_le.2 hmissing)]

/-- **A line is not spread** exactly if it has fewer than two words or is full. -/
theorem spreadGaps?_eq_none_iff (hruns : Run.ofText 0 line = runs 0 l) :
    spreadGaps? line maxWidth = none ↔ l.length < 2 ∨ maxWidth ≤ Text.width line := by
  cases l with
  | nil => simp [spreadGaps?, hruns, runs]
  | cons first l =>
    cases l with
    | nil => simp [spreadGaps?, hruns, runs]
    | cons second l =>
      simp only [spreadGaps?, hruns, runs, List.length_cons]
      split
      · exact iff_of_true rfl (by omega)
      · exact iff_of_false (Option.some_ne_none _) (by omega)

/-- A line that is spread has two words and is not full, and its gaps get their shares. -/
theorem exists_of_spreadGaps? {gaps : List (Int × Run)}
    (hruns : Run.ofText 0 line = runs 0 l) (hadded : ∀ t ∈ l, t.added = 0)
    (h : spreadGaps? line maxWidth = some gaps) :
    ∃ first second rest, l = first :: second :: rest ∧ 0 < maxWidth - Text.width line ∧
      gaps = widened 0 (sharedOut (maxWidth - Text.width line) l) := by
  have hsome : ¬(l.length < 2 ∨ maxWidth ≤ Text.width line) := by
    rw [← spreadGaps?_eq_none_iff hruns, h]
    exact Option.some_ne_none gaps
  match l with
  | [] => simp at hsome
  | [_] => simp at hsome
  | first :: second :: rest =>
    have hmissing : 0 < maxWidth - Text.width line := by omega
    rw [spreadGaps?_eq hruns (hadded first List.mem_cons_self) hmissing, Option.some.injEq] at h
    exact ⟨first, second, rest, rfl, hmissing, h.symm⟩

/-- The line spread and its column map, both read off the stretches. -/
theorem spread_eq (hruns : Run.ofText 0 (laid gap l) = runs 0 l) (hadded : ∀ t ∈ l, t.added = 0)
    {result : Line × ColumnMap} (h : spread (laid gap l) maxWidth = some result) :
    ∃ first second rest, l = first :: second :: rest ∧
      0 < maxWidth - Text.width (laid gap l) ∧
      result = (laid wide (sharedOut (maxWidth - Text.width (laid gap l)) l),
        columnMap (sharedOut (maxWidth - Text.width (laid gap l)) l)) := by
  obtain ⟨gaps, hgaps, rfl⟩ := Option.map_eq_some_iff.1 h
  obtain ⟨first, second, rest, hl, hmissing, rfl⟩ := exists_of_spreadGaps? hruns hadded hgaps
  refine ⟨first, second, rest, hl, hmissing, ?_⟩
  rw [spreadText_widened, ← Int.natCast_zero, placeRuns_widened, columnMap, laid_gap_sharedOut]

/-- **A line spread** has the words of the line after gaps that may be wider, keeps the spaces at
its start and takes exactly the columns that were asked for. -/
theorem exists_stretches_of_spread {new : Line} {map : ColumnMap}
    (hspread : spread line maxWidth = some (new, map)) (hline : line.getLast? ≠ some ' ') :
    ∃ s l, Separated (s :: l) ∧ s.added = 0 ∧ line = laid gap (s :: l) ∧ new = laid wide (s :: l) ∧
      map = columnMap (s :: l) ∧ (Text.width new : Int) = maxWidth := by
  obtain ⟨l, hsep, hadded, rfl, hruns⟩ := exists_laid hline
  obtain ⟨first, second, rest, rfl, hmissing, hpair⟩ := spread_eq (hruns 0) hadded hspread
  obtain ⟨rfl, rfl⟩ := Prod.mk.inj hpair
  have hfirst : first.added = 0 := hadded first List.mem_cons_self
  have hwidth := width_laid_sharedOut (Int.le_of_lt hmissing) hfirst (List.cons_ne_nil second rest)
  have hlaid := laid_gap_sharedOut (maxWidth - Text.width (laid gap (first :: second :: rest)))
    (first :: second :: rest)
  exact ⟨first, _, hsep.sharedOut _, hfirst, hlaid.symm, rfl, rfl, by omega⟩

end Stretch

end ChapterLayout
