import ChapterLayout.Proofs.Justify.Columns
import ChapterLayout.Proofs.Justify.Page

/-! # The two directions of a column map

`ColumnMap.forward` sends a column in a gap on to the next word, and `ColumnMap.reverse` sends it
back to the end of the word before. Both are read off the stretches of the line, from the end of one
word to the end of the next:

* **`Stretch.ahead`**, **`Stretch.back`** — the two directions as recursions on the stretches;
* **`Stretch.ahead_le_iff`** — they are adjoint: `ahead` is the least column that `back` does not
  send before the given one;
* **`Stretch.forward_eq`**, **`Stretch.reverse_eq`** — what the column map computes are these two,
  but for the columns before the first word, which stay;
* **`spread?_connects`** — hence the two directions of the map of any line that is spread are
  adjoint, and going forth and back leads from every word to itself. -/

namespace ChapterLayout

namespace Stretch

/-- The column of the line spread for a column of the line, both counted from the end of the word
before the stretches. -/
def ahead : List Stretch → Nat → Nat
  | [], _ => 0
  | s :: l, i =>
    if i ≤ s.gap then s.wide
    else if i ≤ s.gap + s.word.length then s.wide + (i - s.gap)
    else s.wide + s.word.length + ahead l (i - (s.gap + s.word.length))

/-- The column of the line for a column of the line spread, both counted from the end of the word
before the stretches. -/
def back : List Stretch → Nat → Nat
  | [], _ => 0
  | s :: l, j =>
    if j < s.wide then 0
    else if j ≤ s.wide + s.word.length then s.gap + (j - s.wide)
    else s.gap + s.word.length + back l (j - (s.wide + s.word.length))

variable {s : Stretch} {l : List Stretch} {a b i j : Nat}

/-! ## (1) The two recursions are adjoint -/

/-- Every column is sent behind the first gap of the line spread. -/
theorem wide_le_ahead (s : Stretch) (l : List Stretch) (i : Nat) : s.wide ≤ ahead (s :: l) i := by
  rw [ahead]
  split
  · exact le_rfl
  · split
    · omega
    · omega

/-- A column behind the first gap of the line spread is sent behind that of the line. -/
theorem gap_le_back (l : List Stretch) (h : s.wide ≤ j) : s.gap ≤ back (s :: l) j := by
  rw [back, if_neg (Nat.not_lt.2 h)]
  split
  · omega
  · omega

/-- A column behind the end of a word stays behind it. -/
theorem ahead_pos (hpos : ∀ s ∈ l, 0 < s.gap) (hne : l ≠ []) (i : Nat) : 0 < ahead l i := by
  obtain ⟨s, l, rfl⟩ := List.exists_cons_of_ne_nil hne
  have hgap := hpos s List.mem_cons_self
  have hwide := wide_le_ahead s l i
  rw [wide] at hwide
  omega

/-- **The two directions are adjoint.** -/
theorem ahead_le_iff (hsep : Separated l) (hpos : 0 < i) (hle : i ≤ (laid gap l).length) :
    ahead l i ≤ j ↔ i ≤ back l j := by
  induction l generalizing i j with
  | nil =>
    rw [laid_nil, List.length_nil] at hle
    omega
  | cons s l ih =>
    rw [laid_length_cons] at hle
    rw [ahead, back]
    by_cases hgap : i ≤ s.gap
    · -- The column lies in the gap before the first word, or at its start.
      rw [if_pos hgap]
      split
      · omega
      · split
        · omega
        · omega
    · rw [if_neg hgap]
      by_cases hword : i ≤ s.gap + s.word.length
      · -- The column lies in the first word, or at its end.
        rw [if_pos hword]
        split
        · omega
        · split
          · omega
          · omega
      · -- The column lies behind the first word.
        rw [if_neg hword]
        have hne : l ≠ [] := by
          rintro rfl
          rw [laid_nil, List.length_nil] at hle
          omega
        have hahead : 0 < ahead l (i - (s.gap + s.word.length)) := ahead_pos hsep.gap_pos hne _
        have hrest := ih (j := j - (s.wide + s.word.length)) hsep.tail
          (i := i - (s.gap + s.word.length)) (by omega) (by omega)
        split
        · omega
        · split
          · omega
          · omega

/-- A column of the line is sent to one of the line spread. -/
theorem ahead_le (l : List Stretch) (h : i ≤ (laid gap l).length) :
    ahead l i ≤ (laid wide l).length := by
  induction l generalizing i with
  | nil => exact Nat.zero_le _
  | cons s l ih =>
    rw [laid_length_cons] at h
    rw [ahead, laid_length_cons]
    split
    · omega
    · split
      · omega
      · have := ih (i := i - (s.gap + s.word.length)) (by omega)
        omega

/-- Every column is sent back to one of the line. -/
theorem back_le (l : List Stretch) (j : Nat) : back l j ≤ (laid gap l).length := by
  induction l generalizing j with
  | nil => exact Nat.zero_le _
  | cons s l ih =>
    have := ih (j - (s.wide + s.word.length))
    rw [back, laid_length_cons]
    split
    · omega
    · split
      · omega
      · omega

/-! ## (2) Placed words -/

/-- A word of the line starts behind its gap. -/
theorem origStart_place (s : Stretch) (a b : Nat) :
    (s.place a b).origStart = (a + s.gap : Nat) := rfl

/-- A word of the line spread starts behind its wider gap. -/
theorem newStart_place (s : Stretch) (a b : Nat) :
    (s.place a b).newStart = (b + s.wide : Nat) := rfl

/-- A column before a placed word belongs to an earlier one. -/
theorem place_forward?_before (s : Stretch) (b : Nat) {n : Nat} (hn : n < a + s.gap) :
    (s.place a b).forward? (n : Int) = none := by
  unfold PlacedWord.forward? place
  dsimp only
  rw [if_neg (by omega), if_neg (by omega)]

/-- A column before a word of the line spread is not in that word. -/
theorem place_reverse?_before (s : Stretch) (a : Nat) {n : Nat} (hn : n < b + s.wide) :
    (s.place a b).reverse? (n : Int) = none := by
  unfold PlacedWord.reverse? place
  dsimp only
  rw [if_neg (by omega), if_neg (by omega)]

/-- Inside a placed word and just behind it, columns keep their distance from its start on the way
back as well. -/
theorem place_reverse? (s : Stretch) (a b : Nat) {n : Nat} (hn : n ≤ s.word.length) :
    (s.place a b).reverse? ((b + (s.wide + n) : Nat) : Int) =
      some ((a + (s.gap + n) : Nat) : Int) := by
  unfold PlacedWord.reverse? place
  dsimp only
  rcases Nat.lt_or_eq_of_le hn with hlt | rfl
  · rw [if_pos (by omega)]
    congr 1
    omega
  · rw [if_neg (by omega), if_pos (by omega), Nat.add_assoc]

/-- A column behind the end of a placed word belongs to a later word on the way back as well. -/
theorem place_reverse?_beyond (s : Stretch) (a : Nat) {n : Nat}
    (hn : b + s.wide + s.word.length < n) : (s.place a b).reverse? (n : Int) = none := by
  unfold PlacedWord.reverse? place
  dsimp only
  rw [if_neg (by omega), if_neg (by omega)]

/-- A column before all words is in none of them. -/
theorem findSome?_forward_before {n : Nat} (hn : n < a) (b : Nat) (l : List Stretch) :
    (placed a b l).findSome? (·.forward? (n : Int)) = none := by
  induction l generalizing a b with
  | nil => rfl
  | cons s l ih =>
    rw [placed, List.findSome?_cons, place_forward?_before s b (by omega)]
    exact ih (by omega) _

/-- A column before all words of the line spread is in none of them. -/
theorem findSome?_reverse_before {n : Nat} (hn : n < b) (a : Nat) (l : List Stretch) :
    (placed a b l).findSome? (·.reverse? (n : Int)) = none := by
  induction l generalizing a b with
  | nil => rfl
  | cons s l ih =>
    rw [placed, List.findSome?_cons, place_reverse?_before s a (by omega)]
    exact ih (by omega) _

/-- **The words of a line give `ahead`:** a column belongs to a word, or goes on to the start of the
next one. -/
theorem findSome?_or_find? (hne : l ≠ []) (hi : i ≤ (laid gap l).length) (a b : Nat) :
    ((placed a b l).findSome? (·.forward? ((a + i : Nat) : Int))).or
      (((placed a b l).find? (((a + i : Nat) : Int) < ·.origStart)).map (·.newStart)) =
        some ((b + ahead l i : Nat) : Int) := by
  induction l generalizing a b i with
  | nil => exact absurd rfl hne
  | cons s l ih =>
    rw [laid_length_cons] at hi
    rw [placed, List.findSome?_cons, ahead]
    by_cases hgap : i < s.gap
    · -- The first word is the next one.
      have hstart : ((a + i : Nat) : Int) < (s.place a b).origStart := by
        rw [origStart_place]
        omega
      rw [place_forward?_before s b (by omega), if_pos (Nat.le_of_lt hgap),
        List.find?_cons_of_pos (by simpa using hstart)]
      dsimp only
      rw [findSome?_forward_before (by omega)]
      rfl
    · by_cases hword : i ≤ s.gap + s.word.length
      · have hfound := place_forward? s a b (n := i - s.gap) (by omega)
        rw [Nat.add_sub_cancel' (Nat.le_of_not_lt hgap)] at hfound
        rw [hfound, Option.some_or]
        split
        · congr 2
          omega
        · rfl
      · -- The column lies behind the first word.
        have hstart : ¬((a + i : Nat) : Int) < (s.place a b).origStart := by
          rw [origStart_place]
          omega
        have hne' : l ≠ [] := by
          rintro rfl
          rw [laid_nil, List.length_nil] at hi
          omega
        have hrest := ih hne' (i := i - (s.gap + s.word.length)) (by omega)
          (a + s.gap + s.word.length) (b + s.wide + s.word.length)
        have hcol : a + s.gap + s.word.length + (i - (s.gap + s.word.length)) = a + i := by omega
        rw [hcol] at hrest
        rw [place_forward?_beyond s b (by omega), if_neg (by omega), if_neg hword,
          List.find?_cons_of_neg (by simpa using hstart)]
        dsimp only
        rw [hrest]
        congr 2
        omega

/-- **The words of a line give `back`:** a column belongs to a word, or goes back to the end of the
word before. -/
theorem findSome?_getD_takeWhile (l : List Stretch) (a b j : Nat) :
    ((placed a b l).findSome? (·.reverse? ((b + j : Nat) : Int))).getD
      (((placed a b l).takeWhile (·.newStart ≤ ((b + j : Nat) : Int))).getLast?.elim (a : Int)
        (·.origEnd)) = ((a + back l j : Nat) : Int) := by
  induction l generalizing a b j with
  | nil => rfl
  | cons s l ih =>
    rw [placed, List.findSome?_cons, back]
    by_cases hgap : j < s.wide
    · -- The first word comes later.
      have hstart : ¬(s.place a b).newStart ≤ ((b + j : Nat) : Int) := by
        rw [newStart_place]
        omega
      rw [place_reverse?_before s a (by omega), if_pos hgap,
        List.takeWhile_cons_of_neg (by simpa using hstart)]
      dsimp only
      rw [findSome?_reverse_before (by omega)]
      rfl
    · rw [if_neg hgap]
      by_cases hword : j ≤ s.wide + s.word.length
      · have hfound := place_reverse? s a b (n := j - s.wide) (by omega)
        rw [Nat.add_sub_cancel' (Nat.le_of_not_lt hgap)] at hfound
        rw [hfound, if_pos hword]
        rfl
      · -- The column lies behind the first word.
        have hstart : (s.place a b).newStart ≤ ((b + j : Nat) : Int) := by
          rw [newStart_place]
          omega
        have hrest := ih (a + s.gap + s.word.length) (b + s.wide + s.word.length)
          (j - (s.wide + s.word.length))
        have hcol : b + s.wide + s.word.length + (j - (s.wide + s.word.length)) = b + j := by omega
        have hsum : a + (s.gap + s.word.length + back l (j - (s.wide + s.word.length))) =
            a + s.gap + s.word.length + back l (j - (s.wide + s.word.length)) := by omega
        rw [hcol] at hrest
        rw [place_reverse?_beyond s a (by omega), if_neg hword,
          List.takeWhile_cons_of_pos (by simpa using hstart), List.getLast?_cons, hsum, ← hrest]
        dsimp only
        cases ((placed (a + s.gap + s.word.length) (b + s.wide + s.word.length) l).takeWhile
          (·.newStart ≤ ((b + j : Nat) : Int))).getLast? with
        | none => rfl
        | some w => rfl

/-! ## (3) The column map -/

/-- Columns before the first word stay where they are, and the others go ahead with their word. -/
theorem forwardColumn_placed (hi : i ≤ (laid gap (s :: l)).length) :
    forwardColumn (placed 0 0 (s :: l)) i = (if i < s.gap then i else ahead (s :: l) i : Nat) := by
  have hfound := findSome?_or_find? (List.cons_ne_nil s l) hi 0 0
  rw [Nat.zero_add, Nat.zero_add] at hfound
  rw [forwardColumn]
  by_cases hgap : i < s.gap
  · have hstart : (i : Int) < (s.place 0 0).origStart := by
      rw [origStart_place]
      omega
    have hnone : (placed 0 0 (s :: l)).findSome? (·.forward? (i : Int)) = none := by
      rw [placed, List.findSome?_cons, place_forward?_before s 0 (by omega)]
      exact findSome?_forward_before (by omega) _ l
    rw [hnone, if_pos hgap, placed, List.find?_cons_of_pos (by simpa using hstart),
      List.head?_cons]
    dsimp only
    rw [if_pos hstart]
  · rw [if_neg hgap]
    cases hsome : (placed 0 0 (s :: l)).findSome? (·.forward? (i : Int)) with
    | some new =>
      rw [hsome, Option.some_or] at hfound
      exact Option.some.inj hfound
    | none =>
      -- The column lies in a gap, and not in the one before the first word.
      rw [hsome, Option.none_or, Option.map_eq_some_iff] at hfound
      obtain ⟨next, hnext, hstart⟩ := hfound
      have hfirst : ¬(i : Int) < (s.place 0 0).origStart := by
        rw [origStart_place]
        omega
      rw [hnext, placed, List.head?_cons]
      dsimp only
      rw [if_neg hfirst, hstart]

/-- Columns before the first word stay where they are, and the others go back with their word. -/
theorem reverseColumn_placed (hwide : s.wide = s.gap) :
    reverseColumn (placed 0 0 (s :: l)) j = (if j < s.gap then j else back (s :: l) j : Nat) := by
  have hfound := findSome?_getD_takeWhile (s :: l) 0 0 j
  rw [Nat.zero_add, Nat.zero_add] at hfound
  rw [reverseColumn]
  by_cases hgap : j < s.gap
  · have hstart : ¬(s.place 0 0).newStart ≤ (j : Int) := by
      rw [newStart_place]
      omega
    have hnone : (placed 0 0 (s :: l)).findSome? (·.reverse? (j : Int)) = none := by
      rw [placed, List.findSome?_cons, place_reverse?_before s 0 (by omega)]
      exact findSome?_reverse_before (by omega) _ l
    rw [hnone, if_pos hgap, placed, List.takeWhile_cons_of_neg (by simpa using hstart)]
    rfl
  · rw [if_neg hgap]
    cases hsome : (placed 0 0 (s :: l)).findSome? (·.reverse? (j : Int)) with
    | some old =>
      rw [hsome, Option.getD_some] at hfound
      exact hfound
    | none =>
      -- The column lies in a gap, and the first word starts before it.
      have hstart : (s.place 0 0).newStart ≤ (j : Int) := by
        rw [newStart_place]
        omega
      rw [hsome, Option.getD_none, placed,
        List.takeWhile_cons_of_pos (by simpa using hstart), List.getLast?_cons] at hfound
      rw [placed, List.takeWhile_cons_of_pos (by simpa using hstart), List.getLast?_cons]
      exact hfound

/-- **The way forth:** columns before the first word stay. -/
theorem forward_eq (hi : i ≤ (laid gap (s :: l)).length) (hadded : s.added = 0) :
    (columnMap (s :: l)).forward i = (if i < s.gap then i else ahead (s :: l) i : Nat) := by
  have hwide := wide_of_added hadded
  have hbound := ahead_le (s :: l) hi
  have hahead := wide_le_ahead s l i
  rw [ColumnMap.forward, columnMap]
  dsimp only
  rw [clampColumn_of_le (Int.natCast_nonneg i) (Int.ofNat_le.2 hi), forwardColumn_placed hi]
  refine clampColumn_of_le (Int.natCast_nonneg _) ?_
  split
  · omega
  · omega

/-- **The way back:** columns before the first word stay. -/
theorem reverse_eq (hj : j ≤ (laid wide (s :: l)).length) (hadded : s.added = 0) :
    (columnMap (s :: l)).reverse j = (if j < s.gap then j else back (s :: l) j : Nat) := by
  have hwide := wide_of_added hadded
  have hbound := back_le (s :: l) j
  have hlength := laid_length_cons gap s l
  rw [ColumnMap.reverse, columnMap]
  dsimp only
  rw [clampColumn_of_le (Int.natCast_nonneg j) (Int.ofNat_le.2 hj), reverseColumn_placed hwide]
  refine clampColumn_of_le (Int.natCast_nonneg _) ?_
  split
  · omega
  · omega

/-- **The two directions of the column map are adjoint.** -/
theorem forward_le_iff (hsep : Separated (s :: l)) (hadded : s.added = 0)
    (hi : i ≤ (laid gap (s :: l)).length) (hj : j ≤ (laid wide (s :: l)).length) :
    (columnMap (s :: l)).forward i ≤ j ↔ (i : Int) ≤ (columnMap (s :: l)).reverse j := by
  have hwide := wide_of_added hadded
  have hahead := wide_le_ahead s l i
  rw [forward_eq hi hadded, reverse_eq hj hadded, Int.ofNat_le, Int.ofNat_le]
  by_cases hgap : i < s.gap
  · rw [if_pos hgap]
    split
    · rfl
    · have := gap_le_back l (s := s) (j := j) (by omega)
      omega
  · rw [if_neg hgap]
    split
    · omega
    · by_cases hpos : 0 < i
      · exact ahead_le_iff hsep hpos hi
      · -- The line starts with a word, and its first column stays.
        obtain rfl : i = 0 := by omega
        rw [ahead, if_pos (Nat.zero_le _)]
        omega

namespace Aligned

/-- Letters move to the right. -/
theorem le_new (h : Aligned l i j) : i ≤ j := by
  induction h with
  | @here s l n hn =>
    rw [wide]
    omega
  | @later s l i j h ih =>
    rw [wide]
    omega

/-- The way back leads to the letter, and from the column just behind it to the one just behind the
letter. -/
theorem back {k : Nat} (hk : k ≤ 1) (h : Aligned l i j) (hsep : Separated l) :
    back l (j + k) = i + k := by
  induction h with
  | @here s l n hn =>
    rw [Stretch.back, if_neg (by omega), if_pos (by omega)]
    omega
  | @later s l i j h ih =>
    have hpos : 0 < i := h.pos hsep.gap_pos
    have hle := h.le_new
    have hcol : s.wide + s.word.length + j + k - (s.wide + s.word.length) = j + k := by omega
    rw [Stretch.back, if_neg (by omega), if_neg (by omega), hcol, ih hsep.tail]
    omega

/-- The letters are the same. -/
theorem getElem?_eq (h : Aligned l i j) : (laid wide l)[j]? = (laid gap l)[i]? := by
  induction h with
  | @here s l n hn =>
    have hspaces : ∀ width : Stretch → Nat,
        (laid width (s :: l))[width s + n]? = (s.word ++ laid width l)[n]? := by
      intro width
      rw [laid_cons, List.getElem?_append_right (by simp), List.length_replicate,
        Nat.add_sub_cancel_left]
    rw [hspaces, hspaces, List.getElem?_append_left hn, List.getElem?_append_left hn]
  | @later s l i j h ih =>
    have hbehind : ∀ (width : Stretch → Nat) (n : Nat),
        (laid width (s :: l))[width s + s.word.length + n]? = (laid width l)[n]? := by
      intro width n
      rw [laid_cons, Nat.add_assoc, List.getElem?_append_right (by simp), List.length_replicate,
        Nat.add_sub_cancel_left, List.getElem?_append_right (Nat.le_add_right _ _),
        Nat.add_sub_cancel_left]
    rw [hbehind, hbehind, ih]

/-- The column map finds its way back to a letter and to the column just behind it. -/
theorem reverse {k : Nat} (hk : k ≤ 1) (h : Aligned (s :: l) i j) (hsep : Separated (s :: l))
    (hadded : s.added = 0) :
    (columnMap (s :: l)).reverse ((j + k : Nat) : Int) = ((i + k : Nat) : Int) := by
  have hlt := h.lt_length
  have hgap : s.gap ≤ j := by
    cases h with
    | here _ =>
      rw [wide]
      omega
    | later _ _ =>
      rw [wide]
      omega
  rw [reverse_eq (by omega) hadded, if_neg (by omega), h.back hk hsep]

end Aligned

end Stretch

/-! ## (4) Maps of lines -/

/-- Whether a column map leads forth and back between a line and the line spread. -/
structure ColumnMap.Connects (map : ColumnMap) (old new : Line) : Prop where
  origLength : map.origLength = old.length
  newLength : map.newLength = new.length
  /-- The two directions are adjoint. -/
  forward_le_iff : ∀ c d, 0 ≤ c → c ≤ map.origLength → 0 ≤ d → d ≤ map.newLength →
    (map.forward c ≤ d ↔ c ≤ map.reverse d)
  /-- Every column, even one outside of the line, leads to a column of the other line. -/
  forward_mem : ∀ c, 0 ≤ map.forward c ∧ map.forward c ≤ map.newLength
  reverse_mem : ∀ d, 0 ≤ map.reverse d ∧ map.reverse d ≤ map.origLength
  /-- The way forth and back leads from a letter to itself, and from the column just behind a letter
  as well. -/
  reverse_forward : ∀ i, Text.LetterAt old i →
    map.reverse (map.forward i) = i ∧ map.reverse (map.forward (i + 1 : Nat)) = (i + 1 : Nat)
  /-- A letter of the line stands in the line spread where the map says. -/
  letter : ∀ i, Text.LetterAt old i → ∃ j : Nat, map.forward i = j ∧ new[j]? = old[i]?

namespace ColumnMap

variable {map : ColumnMap} {line new : Line}

/-- Clamping a column is monotone. -/
theorem clampColumn_mono {c c' : Int} (length : Int) (h : c ≤ c') :
    clampColumn c length ≤ clampColumn c' length := by
  unfold clampColumn
  omega

/-- A clamped column is one of the line. -/
theorem clampColumn_mem {length : Int} (h : 0 ≤ length) (c : Int) :
    0 ≤ clampColumn c length ∧ clampColumn c length ≤ length := by
  unfold clampColumn
  omega

/-- Columns are clamped to the line before they are sent forward. -/
theorem forward_clampColumn (map : ColumnMap) (c : Int) :
    map.forward (clampColumn c map.origLength) = map.forward c := by
  have hclamp : clampColumn (clampColumn c map.origLength) map.origLength =
      clampColumn c map.origLength := by
    unfold clampColumn
    omega
  rw [forward, hclamp, forward]

/-- Columns are clamped to the line spread before they are sent back. -/
theorem reverse_clampColumn (map : ColumnMap) (d : Int) :
    map.reverse (clampColumn d map.newLength) = map.reverse d := by
  have hclamp : clampColumn (clampColumn d map.newLength) map.newLength =
      clampColumn d map.newLength := by
    unfold clampColumn
    omega
  rw [reverse, hclamp, reverse]

/-- Adjoint directions are monotone: the way forth is. -/
theorem Connects.forward_mono (h : map.Connects line new) {c c' : Int} (hle : c ≤ c') :
    map.forward c ≤ map.forward c' := by
  have hlength : 0 ≤ map.origLength := h.origLength ▸ Int.natCast_nonneg _
  have hmem := clampColumn_mem hlength c
  have hmem' := clampColumn_mem hlength c'
  have hnew := h.forward_mem c'
  have hback := (h.forward_le_iff _ _ hmem'.1 hmem'.2 hnew.1 hnew.2).1
    (map.forward_clampColumn c').le
  rw [← map.forward_clampColumn c]
  exact (h.forward_le_iff _ _ hmem.1 hmem.2 hnew.1 hnew.2).2
    ((clampColumn_mono _ hle).trans hback)

/-- Adjoint directions are monotone: the way back is. -/
theorem Connects.reverse_mono (h : map.Connects line new) {d d' : Int} (hle : d ≤ d') :
    map.reverse d ≤ map.reverse d' := by
  have hlength : 0 ≤ map.newLength := h.newLength ▸ Int.natCast_nonneg _
  have hmem := clampColumn_mem hlength d
  have hmem' := clampColumn_mem hlength d'
  have hold := h.reverse_mem d
  have hforth := (h.forward_le_iff _ _ hold.1 hold.2 hmem.1 hmem.2).2
    (map.reverse_clampColumn d).ge
  rw [← map.reverse_clampColumn d']
  exact (h.forward_le_iff _ _ hold.1 hold.2 hmem'.1 hmem'.2).1
    (hforth.trans (clampColumn_mono _ hle))

/-- **The map of a line that is spread** leads forth and back. -/
theorem connects_of_spread {maxWidth : Int} (hline : line.getLast? ≠ some ' ')
    (hspread : spread line maxWidth = some (new, map)) : map.Connects line new := by
  obtain ⟨s, l, hsep, hadded, rfl, rfl, rfl, -⟩ := Stretch.exists_stretches_of_spread hspread hline
  have hlength : (0 : Int) ≤ (Stretch.columnMap (s :: l)).origLength := Int.natCast_nonneg _
  have hlength' : (0 : Int) ≤ (Stretch.columnMap (s :: l)).newLength := Int.natCast_nonneg _
  refine ⟨rfl, rfl, fun c d hc hc' hd hd' => ?_, fun c => clampColumn_mem hlength' _,
    fun d => clampColumn_mem hlength _, fun i hi => ?_, fun i hi => ?_⟩
  · obtain ⟨i, rfl⟩ := Int.eq_ofNat_of_zero_le hc
    obtain ⟨j, rfl⟩ := Int.eq_ofNat_of_zero_le hd
    exact Stretch.forward_le_iff hsep hadded (Int.ofNat_le.1 hc') (Int.ofNat_le.1 hd')
  · obtain ⟨j, hj⟩ := Stretch.Aligned.exists_of_letterAt hi
    have hforth := hj.forward (Nat.zero_le 1) hsep
    have hback := hj.reverse (Nat.zero_le 1) hsep hadded
    rw [Nat.add_zero, Nat.add_zero] at hforth hback
    rw [hforth, hj.forward (Nat.le_refl 1) hsep]
    exact ⟨hback, hj.reverse (Nat.le_refl 1) hsep hadded⟩
  · obtain ⟨j, hj⟩ := Stretch.Aligned.exists_of_letterAt hi
    have hforth := hj.forward (Nat.zero_le 1) hsep
    rw [Nat.add_zero, Nat.add_zero] at hforth
    exact ⟨j, hforth, hj.getElem?_eq⟩

end ColumnMap

/-- **The two directions of the map of a line that is spread are adjoint,** hence monotone. They
stay within the lines, and the way forth and back leads from every word to itself. -/
theorem spread?_connects {line new : Line} {maxWidth : Int} {map : ColumnMap}
    (hline : line.getLast? ≠ some ' ')
    (hspread : spread? line maxWidth = .ok (some (new, map))) :
    map.Connects line new ∧ (∀ c c', c ≤ c' → map.forward c ≤ map.forward c') ∧
      ∀ d d', d ≤ d' → map.reverse d ≤ map.reverse d' := by
  have hconnects := ColumnMap.connects_of_spread hline (spread?_eq hspread).symm
  exact ⟨hconnects, fun _ _ => hconnects.forward_mono, fun _ _ => hconnects.reverse_mono⟩

/-- An indented line with gaps of one and of three columns takes three columns more. -/
theorem spread?_connects_indented :
    let line : Line := "  ab c   d".toList
    let new : Line := "  ab   c    d".toList
    ∃ map, line.getLast? ≠ some ' ' ∧ spread? line 13 = .ok (some (new, map)) ∧
      (List.range 11).map (fun c => map.forward c) = [0, 1, 2, 3, 4, 7, 8, 12, 12, 12, 13] ∧
      (List.range 14).map (fun d => map.reverse d) = [0, 1, 2, 3, 4, 4, 4, 5, 6, 6, 6, 6, 9, 10] ∧
      map.Connects line new ∧ (∀ c c', c ≤ c' → map.forward c ≤ map.forward c') ∧
      ∀ d d', d ≤ d' → map.reverse d ≤ map.reverse d' := by
  intro line new
  have hline : line.getLast? ≠ some ' ' := by decide
  have hspread : spread? line 13 = .ok (some (new, ⟨[⟨"ab".toList, 2, 4, 2, 4⟩,
      ⟨"c".toList, 5, 6, 7, 8⟩, ⟨"d".toList, 9, 10, 12, 13⟩], 10, 13⟩)) := by decide +kernel
  exact ⟨_, hline, hspread, by decide, by decide, spread?_connects hline hspread⟩

end ChapterLayout
