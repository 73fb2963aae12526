import Mathlib.Data.List.Basic
import ChapterLayout.Proofs.Justify.Limits
import ChapterLayout.Proofs.Justify.Page

/-! # How the missing columns are shared out

A line that is spread takes exactly the columns it lacks of the width, and every gap between two
words gets its share of them: the quotient by the number of gaps, and the first gaps one column
more, as many as remain. `SharesOut` says so of a line, the line spread and its column map:

* **`Stretch.gaps_sharedOut`** — what the gaps grow by;
* **`Stretch.cut_of_mem_placed`** — every placed word is cut out of both lines at its columns;
* **`Stretch.sharesOut`** — the line of some stretches and the line spread are as `SharesOut` asks;
* **`spread?_sharesOut`** — which lines are spread, and that the others stay as they are. -/

namespace ChapterLayout

/-- The columns that a line lacks of the given width. -/
def missingColumns (maxWidth : Int) (line : Line) : Nat := (maxWidth - Text.width line).toNat

/-- The number of gaps between the words of a line. -/
def gapCount (line : Line) : Nat := (Text.words Text.isSpace line).length - 1

/-- Whether the missing columns of a line are shared out among its gaps: besides what any two such
lines have in common, this says how wide the gaps get and where the words stand. -/
structure SharesOut (maxWidth : Int) (line new : Line) (map : ColumnMap) : Prop
    extends Page.SpreadLine maxWidth line new where
  /-- Every gap between two words grows by the quotient, and the first ones, as many as the
  remainder says, by one column more. -/
  shares : Text.gaps (new.dropWhile Text.isSpace) =
    (Text.gaps (line.dropWhile Text.isSpace)).mapIdx fun i gap =>
      gap + missingColumns maxWidth line / gapCount line +
        if i < missingColumns maxWidth line % gapCount line then 1 else 0
  /-- The placed words are the words of the line. -/
  placed : map.words.map (·.word) = Text.words Text.isSpace line
  /-- A placed word ends before the next one starts, in both lines. -/
  apart : map.words.Pairwise fun w w' => w.origEnd < w'.origStart ∧ w.newEnd < w'.newStart
  /-- The columns of a placed word are exactly those of the word, in both lines. -/
  slice : ∀ w ∈ map.words, 0 ≤ w.origStart ∧ 0 ≤ w.newStart ∧
    Slice.cut line w.origStart w.origEnd = w.word ∧ Slice.cut new w.newStart w.newEnd = w.word

namespace Stretch

variable {s : Stretch} {l : List Stretch} {extra remainder a b : Nat} {width : Stretch → Nat}
  {maxWidth : Int}

/-! ## (1) The gaps -/

/-- The gaps between the words of a line are those of all its stretches but the first. -/
theorem Separated.gaps_dropWhile_laid (h : Separated (s :: l)) (hpos : ∀ t ∈ l, width t ≠ 0) :
    Text.gaps ((laid width (s :: l)).dropWhile Text.isSpace) = l.map width := by
  rw [h.dropWhile_laid, h.head.gaps_append, h.tail.gaps_laid, List.filter_eq_self]
  exact List.forall_mem_map.2 fun t ht => decide_eq_true (hpos t ht)

/-- **Every gap grows by the same number of columns**, and the first ones by one column more. -/
theorem map_wide_share (extra remainder : Nat) (l : List Stretch) :
    (share extra remainder l).map wide =
      (l.map gap).mapIdx fun i gap => gap + extra + if i < remainder then 1 else 0 := by
  induction l generalizing remainder with
  | nil => rfl
  | cons s l ih =>
    rw [share, List.map_cons, List.map_cons, List.mapIdx_cons, ih, wide]
    congr 1
    · dsimp only
      split
      · omega
      · omega
    · -- The gap behind the first one is the first of the others.
      congr 1
      funext i gap
      have hindex : i < remainder - 1 ↔ i + 1 < remainder := by omega
      simp only [hindex]

/-- **The gaps of the line spread** are those of the line with their shares. -/
theorem gaps_sharedOut (hsep : Separated (s :: l)) (missing : Nat) :
    Text.gaps ((laid wide (sharedOut missing (s :: l))).dropWhile Text.isSpace) =
      (Text.gaps ((laid gap (s :: l)).dropWhile Text.isSpace)).mapIdx fun i gap =>
        gap + missing / l.length + if i < missing % l.length then 1 else 0 := by
  have hgap : ∀ t ∈ l, t.gap ≠ 0 := fun t ht => Nat.ne_of_gt (hsep.gap_pos t ht)
  have hshared : Separated (s :: share (missing / l.length) (missing % l.length) l) :=
    hsep.share _ _
  have hwide : ∀ t ∈ share (missing / l.length) (missing % l.length) l, t.wide ≠ 0 := by
    intro t ht
    have hpos := hshared.gap_pos t ht
    rw [wide]
    omega
  rw [sharedOut, ← Int.natCast_ediv, ← Int.natCast_emod, Int.toNat_natCast, Int.toNat_natCast,
    hshared.gaps_dropWhile_laid hwide, hsep.gaps_dropWhile_laid hgap, map_wide_share]

/-! ## (2) The placed words -/

/-- The words that are placed are those of the stretches. -/
theorem map_word_placed (a b : Nat) (l : List Stretch) :
    (placed a b l).map (·.word) = l.map (·.word) := by
  induction l generalizing a b with
  | nil => rfl
  | cons s l ih => rw [placed, List.map_cons, ih, List.map_cons, place]

/-- Words behind a gap start behind the word before it. -/
theorem lt_of_mem_placed {w : PlacedWord} (hpos : ∀ s ∈ l, 0 < s.gap) (hw : w ∈ placed a b l) :
    (a : Int) < w.origStart ∧ (b : Int) < w.newStart := by
  induction l generalizing a b with
  | nil => cases hw
  | cons s l ih =>
    obtain ⟨hgap, hrest⟩ := List.forall_mem_cons.1 hpos
    rcases List.mem_cons.1 hw with rfl | hw
    · unfold place wide
      dsimp only
      omega
    · have := ih hrest hw
      omega

/-- The words that are placed are in order and apart, on the line and on the line spread. -/
theorem pairwise_placed (h : Separated l) (a b : Nat) :
    (placed a b l).Pairwise fun w w' => w.origEnd < w'.origStart ∧ w.newEnd < w'.newStart := by
  induction l generalizing a b with
  | nil => exact List.Pairwise.nil
  | cons s l ih =>
    rw [placed, List.pairwise_cons]
    exact ⟨fun w hw => lt_of_mem_placed h.gap_pos hw, ih h.tail _ _⟩

/-- A word is cut out of a text at its columns. -/
theorem cut_word (t word rest : Text) :
    Slice.cut (t ++ (word ++ rest)) t.length (t.length + word.length : Nat) = word := by
  rw [Slice.cut_natCast, List.take_length_add_append, List.take_left, List.drop_left]

/-- The first word of a line that goes on from a text, and what follows it. -/
theorem append_laid_cons (t : Text) (width : Stretch → Nat) (s : Stretch) (l : List Stretch) :
    t ++ laid width (s :: l) = (t ++ List.replicate (width s) ' ') ++ (s.word ++ laid width l) := by
  rw [laid_cons, List.append_assoc]

/-- **Every placed word is cut out of both lines** at its columns. -/
theorem cut_of_mem_placed {w : PlacedWord} (t u : Text) (hw : w ∈ placed t.length u.length l) :
    0 ≤ w.origStart ∧ 0 ≤ w.newStart ∧
      Slice.cut (t ++ laid gap l) w.origStart w.origEnd = w.word ∧
      Slice.cut (u ++ laid wide l) w.newStart w.newEnd = w.word := by
  induction l generalizing t u with
  | nil => cases hw
  | cons s l ih =>
    have hlength (t : Text) (n : Nat) : (t ++ List.replicate n ' ').length = t.length + n := by
      rw [List.length_append, List.length_replicate]
    have hlength' (t : Text) (n : Nat) :
        (t ++ List.replicate n ' ' ++ s.word).length = t.length + n + s.word.length := by
      rw [List.length_append, hlength]
    rcases List.mem_cons.1 hw with rfl | hw
    · have horig := cut_word (t ++ List.replicate s.gap ' ') s.word (laid gap l)
      have hnew := cut_word (u ++ List.replicate s.wide ' ') s.word (laid wide l)
      rw [hlength, ← append_laid_cons] at horig hnew
      exact ⟨Int.natCast_nonneg _, Int.natCast_nonneg _, horig, hnew⟩
    · -- The texts go on with the first word.
      rw [append_laid_cons, ← List.append_assoc, append_laid_cons, ← List.append_assoc (u ++ _)]
      apply ih
      rwa [hlength', hlength']

/-! ## (3) The line spread -/

/-- **The line spread shares the missing columns out** among its gaps. -/
theorem sharesOut (hsep : Separated l) (hruns : Run.ofText 0 (laid gap l) = runs 0 l)
    (hadded : ∀ t ∈ l, t.added = 0) {new : Line} {map : ColumnMap}
    (hspread : spread (laid gap l) maxWidth = some (new, map))
    (hline : (laid gap l).getLast? ≠ some ' ') : SharesOut maxWidth (laid gap l) new map := by
  have hcommon := Page.spreadLine_of_spread hspread hline
  obtain ⟨first, second, rest, rfl, hmissing, hpair⟩ := spread_eq hruns hadded hspread
  -- A line that is spread misses columns, so that no count is negative.
  have hcolumns : maxWidth - Text.width (laid gap (first :: second :: rest)) =
      missingColumns maxWidth (laid gap (first :: second :: rest)) := by
    rw [missingColumns, Int.toNat_of_nonneg (Int.le_of_lt hmissing)]
  rw [hcolumns] at hpair
  obtain ⟨rfl, rfl⟩ := Prod.mk.inj hpair
  have hcount : gapCount (laid gap (first :: second :: rest)) = (second :: rest).length := by
    rw [gapCount, hsep.words_laid fun _ => Nat.le_refl _, List.length_map, List.length_cons,
      Nat.add_sub_cancel]
  have hshared := hsep.sharedOut (missingColumns maxWidth (laid gap (first :: second :: rest)))
  refine { hcommon with
    shares := ?_
    placed := ?_
    apart := pairwise_placed hshared 0 0
    slice := fun w hw => ?_ }
  -- The gaps are those shared out, and the words and their columns stay those of the line.
  · rw [hcount]
    exact gaps_sharedOut hsep _
  · have hwords := hshared.words_laid fun _ => Nat.le_refl _
    rw [laid_gap_sharedOut] at hwords
    exact (map_word_placed 0 0 _).trans hwords.symm
  · have hcut := cut_of_mem_placed [] [] hw
    rwa [List.nil_append, List.nil_append, laid_gap_sharedOut] at hcut

/-- A line that memory cannot hold once it is spread has a gap that memory cannot hold. -/
theorem exists_gap_of_error (hsep : Separated l) (hruns : Run.ofText 0 (laid gap l) = runs 0 l)
    (hadded : ∀ t ∈ l, t.added = 0) {new : Line} {map : ColumnMap} {e : LimitError}
    (hspread : spread (laid gap l) maxWidth = some (new, map))
    (herror : spread? (laid gap l) maxWidth = .error e) :
    ∃ gap ∈ Text.gaps new, LimitError.memorySize ≤ gap := by
  by_contra! hfits
  have hresult : ∃ result, spread? (laid gap l) maxWidth = .ok result := by
    refine Page.exists_spread?_iff.2 fun gaps hgaps width hwidth => ?_
    obtain ⟨-, -, -, -, -, hpair⟩ := spread_eq hruns hadded hspread
    obtain ⟨-, -, -, -, -, rfl⟩ := exists_of_spreadGaps? hruns hadded hgaps
    obtain ⟨rfl, rfl⟩ := Prod.mk.inj hpair
    obtain ⟨s, hs, hwide⟩ := exists_of_mem_widened hwidth
    rw [hwide]
    by_cases hzero : s.wide = 0
    · rw [hzero]
      exact LimitError.memorySize_pos
    · apply hfits
      rw [(hsep.sharedOut _).gaps_laid, List.mem_filter]
      exact ⟨List.mem_map_of_mem hs, decide_eq_true hzero⟩
  obtain ⟨result, hresult⟩ := hresult
  rw [herror] at hresult
  cases hresult

end Stretch

/-- **Which lines are spread, and how.** A line without a space at its end stays as it is exactly if
it has fewer than two words or is full. Any other line is spread, and the missing columns are shared
out among its gaps, unless memory cannot hold a gap of the line spread. -/
theorem spread?_sharesOut {line : Line} (hline : line.getLast? ≠ some ' ') (maxWidth : Int) :
    (spread? line maxWidth = .ok none ↔
      (Text.words Text.isSpace line).length < 2 ∨ maxWidth ≤ Text.width line) ∧
    (2 ≤ (Text.words Text.isSpace line).length → Text.width line < maxWidth →
      ∃ new map, spread line maxWidth = some (new, map) ∧ SharesOut maxWidth line new map ∧
        (spread? line maxWidth = .ok (some (new, map)) ∨
          ∃ e, spread? line maxWidth = .error e ∧
            ∃ gap ∈ Text.gaps new, LimitError.memorySize ≤ gap)) := by
  obtain ⟨l, hsep, hadded, rfl, hruns⟩ := Stretch.exists_laid hline
  have hlength : (Text.words Text.isSpace (Stretch.laid Stretch.gap l)).length = l.length := by
    rw [hsep.words_laid fun _ => Nat.le_refl _, List.length_map]
  have hnone : spreadGaps? (Stretch.laid Stretch.gap l) maxWidth = none ↔
      l.length < 2 ∨ maxWidth ≤ Text.width (Stretch.laid Stretch.gap l) :=
    Stretch.spreadGaps?_eq_none_iff (hruns 0)
  rw [hlength]
  refine ⟨?_, fun hwords hwidth => ?_⟩
  -- A line is left as it is just if it has no gaps to widen.
  · rw [← hnone]
    refine ⟨fun h => ?_, fun h => by rw [spread?, h]⟩
    exact Option.map_eq_none_iff.1 (spread?_eq h).symm
  · have hsome : spreadGaps? (Stretch.laid Stretch.gap l) maxWidth ≠ none := by
      rw [ne_eq, hnone]
      omega
    obtain ⟨gaps, hgaps⟩ := Option.ne_none_iff_exists'.1 hsome
    obtain ⟨new, map, hspread⟩ : ∃ new map,
        spread (Stretch.laid Stretch.gap l) maxWidth = some (new, map) :=
      ⟨_, _, by rw [spread, hgaps, Option.map_some]⟩
    refine ⟨new, map, hspread, Stretch.sharesOut hsep (hruns 0) hadded hspread hline, ?_⟩
    -- The gaps are the same in both; only a gap that memory cannot hold makes an error.
    cases hresult : spread? (Stretch.laid Stretch.gap l) maxWidth with
    | ok result =>
      rw [spread?_eq hresult, hspread]
      exact .inl rfl
    | error e =>
      exact .inr ⟨e, rfl, Stretch.exists_gap_of_error hsep (hruns 0) hadded hspread hresult⟩

/-- Letters that take two columns each leave five columns for two gaps, of which the second is wider
than the first. -/
theorem spread?_sharesOut_wide :
    let line : Line := " 日本 a  b".toList
    line.getLast? ≠ some ' ' ∧ 2 ≤ (Text.words Text.isSpace line).length ∧
      Text.width line = 10 ∧
      (spread? line 10 = .ok none ↔ (Text.words Text.isSpace line).length < 2 ∨
        (10 : Int) ≤ Text.width line) ∧
      ∃ new map, spread line 15 = some (new, map) ∧ new = " 日本    a    b".toList ∧
        map.words = [⟨"日本".toList, 1, 3, 1, 3⟩, ⟨['a'], 4, 5, 7, 8⟩, ⟨['b'], 7, 8, 12, 13⟩] ∧
        SharesOut 15 line new map := by
  intro line
  have hline : line.getLast? ≠ some ' ' := by decide
  have hwidth : Text.width line = 10 := by decide +kernel
  have hwords : 2 ≤ (Text.words Text.isSpace line).length := by decide
  obtain ⟨new, map, hspread, hshares, -⟩ := (spread?_sharesOut hline 15).2 hwords (by omega)
  have hresult : spread line 15 = some (" 日本    a    b".toList,
      ⟨[⟨"日本".toList, 1, 3, 1, 3⟩, ⟨['a'], 4, 5, 7, 8⟩, ⟨['b'], 7, 8, 12, 13⟩], 8, 13⟩) := by
    decide +kernel
  obtain ⟨rfl, rfl⟩ := Prod.mk.inj (Option.some.inj (hspread.symm.trans hresult))
  exact ⟨hline, hwords, hwidth, (spread?_sharesOut hline 10).1, _, _, hspread, rfl, rfl, hshares⟩

end ChapterLayout
