import ChapterLayout.Proofs.Justify.Stretch
import ChapterLayout.Proofs.Style.Clamp
import ChapterLayout.Proofs.Text.Letters
import ChapterLayout.Text.Slice

/-! # Columns of a line and of the line spread

`Aligned l i j` says that a letter at column `i` of a line stands at column `j` once the line is
spread.

* **`Aligned.exists_of_letterAt`** — every letter of the line stands somewhere;
* **`Aligned.forward`** — the column map finds it, and the column just behind it;
* **`Aligned.between`** — what stands between two letters is the same up to spaces. -/

namespace ChapterLayout.Stretch

/-- Whether a letter at column `i` of a line stands at column `j` of the line spread. -/
inductive Aligned : List Stretch → Nat → Nat → Prop where
  /-- A letter of the first word. -/
  | here {s : Stretch} {l : List Stretch} {n : Nat} (h : n < s.word.length) :
    Aligned (s :: l) (s.gap + n) (s.wide + n)
  /-- A letter of a later word. -/
  | later (s : Stretch) {l : List Stretch} {i j : Nat} (h : Aligned l i j) :
    Aligned (s :: l) (s.gap + s.word.length + i) (s.wide + s.word.length + j)

variable {l : List Stretch} {i i' j j' : Nat}

/-- Inside a placed word and just behind it, columns keep their distance from its start. -/
theorem place_forward? (s : Stretch) (a b : Nat) {n : Nat} (hn : n ≤ s.word.length) :
    (s.place a b).forward? ((a + (s.gap + n) : Nat) : Int) =
      some ((b + (s.wide + n) : Nat) : Int) := by
  unfold PlacedWord.forward? place
  dsimp only
  rcases Nat.lt_or_eq_of_le hn with hlt | rfl
  · rw [if_pos (by omega)]
    congr 1
    omega
  · rw [if_neg (by omega), if_pos (by omega), Nat.add_assoc]

/-- A column behind the end of a placed word belongs to a later word. -/
theorem place_forward?_beyond (s : Stretch) (b : Nat) {a n : Nat}
    (hn : a + s.gap + s.word.length < n) : (s.place a b).forward? (n : Int) = none := by
  unfold PlacedWord.forward? place
  dsimp only
  rw [if_neg (by omega), if_neg (by omega)]

namespace Aligned

/-! ## (1) Letters of the line -/

/-- **Every letter of a line stands somewhere once the line is spread.** -/
theorem exists_of_letterAt (h : Text.LetterAt (laid gap l) i) : ∃ j, Aligned l i j := by
  induction l generalizing i with
  | nil => exact absurd h.lt (Nat.not_lt_zero i)
  | cons s l ih =>
    rw [laid_cons] at h
    -- The letter is not in the gap, so it stands in the word or behind it.
    have hgap : s.gap ≤ i := by
      refine Nat.le_of_not_lt fun hlt => ?_
      obtain ⟨c, hc, hletter⟩ := h
      rw [List.getElem?_append_left (by simpa using hlt)] at hc
      rw [List.eq_of_mem_replicate (List.mem_of_getElem? hc)] at hletter
      exact absurd hletter (by decide)
    obtain ⟨n, rfl⟩ := Nat.exists_eq_add_of_le hgap
    rw [Text.letterAt_append_right (by simp), List.length_replicate, Nat.add_sub_cancel_left] at h
    by_cases hn : n < s.word.length
    · exact ⟨_, here hn⟩
    · obtain ⟨m, rfl⟩ := Nat.exists_eq_add_of_le (Nat.le_of_not_lt hn)
      rw [Text.letterAt_append_right (Nat.le_add_right _ _), Nat.add_sub_cancel_left] at h
      obtain ⟨j, hj⟩ := ih h
      exact ⟨_, Nat.add_assoc .. ▸ later s hj⟩

/-- The letters stand in the two lines. -/
theorem lt_length (h : Aligned l i j) : i < (laid gap l).length ∧ j < (laid wide l).length := by
  induction h with
  | here h =>
    rw [laid_length_cons, laid_length_cons]
    omega
  | later s _ ih =>
    rw [laid_length_cons, laid_length_cons]
    omega

/-- Before a letter stands the gap of the first word. -/
theorem pos (h : Aligned l i j) (hpos : ∀ s ∈ l, 0 < s.gap) : 0 < i := by
  cases h with
  | here _ => exact Nat.add_pos_left (hpos _ List.mem_cons_self) _
  | later s _ => exact Nat.add_pos_left (Nat.add_pos_left (hpos s List.mem_cons_self) _) _

/-- Letters keep their order. -/
theorem le (h : Aligned l i j) (h' : Aligned l i' j') (hle : i ≤ i') : j ≤ j' := by
  induction h generalizing i' j' with
  | here hn =>
    cases h' with
    | here _ => omega
    | later _ _ => omega
  | later s _ ih =>
    cases h' with
    | here _ => omega
    | later _ h' =>
      have := ih h' (by omega)
      omega

/-! ## (2) The column map -/

/-- The map finds the word of a letter, at the letter (`k = 0`) and just behind it (`k = 1`). -/
theorem findSome?_forward {k : Nat} (hk : k ≤ 1) (h : Aligned l i j) (hsep : Separated l)
    (a b : Nat) : (placed a b l).findSome? (·.forward? ((a + (i + k) : Nat) : Int)) =
      some ((b + (j + k) : Nat) : Int) := by
  induction h generalizing a b with
  | @here s l n hn =>
    have hfound := place_forward? s a b (n := n + k) (by omega)
    rw [placed, List.findSome?_cons, Nat.add_assoc s.gap, hfound, Nat.add_assoc s.wide]
  | @later s l i j h ih =>
    -- A space stands between the first word and the letter, so the first word is passed over.
    have hpos : 0 < i := h.pos hsep.gap_pos
    have hbeyond : a + s.gap + s.word.length < a + (s.gap + s.word.length + i + k) := by omega
    have hnone := place_forward?_beyond s b hbeyond
    have hrest := ih hsep.tail (a + s.gap + s.word.length) (b + s.wide + s.word.length)
    rw [placed, List.findSome?_cons, hnone]
    dsimp only
    have hcol : a + (s.gap + s.word.length + i + k) = a + s.gap + s.word.length + (i + k) := by
      omega
    rw [hcol, hrest]
    congr 2
    omega

/-- **The column map finds a letter** and the column just behind it. -/
theorem forward {k : Nat} (hk : k ≤ 1) (h : Aligned l i j) (hsep : Separated l) :
    (columnMap l).forward ((i + k : Nat) : Int) = ((j + k : Nat) : Int) := by
  have hfound := h.findSome?_forward hk hsep 0 0
  rw [Nat.zero_add, Nat.zero_add] at hfound
  obtain ⟨hi, hj⟩ := h.lt_length
  have hcol : clampColumn ((i + k : Nat) : Int) (laid gap l).length = (i + k : Nat) :=
    clampColumn_of_le (by omega) (by omega)
  have hnew : clampColumn ((j + k : Nat) : Int) (laid wide l).length = (j + k : Nat) :=
    clampColumn_of_le (by omega) (by omega)
  rw [ColumnMap.forward, columnMap]
  dsimp only
  rw [hcol, forwardColumn, hfound]
  exact hnew

/-! ## (3) What stands between two letters -/

/-- The part of a line up to a column behind its first gap. -/
theorem take_laid_cons (width : Stretch → Nat) (s : Stretch) (l : List Stretch) (n : Nat) :
    (laid width (s :: l)).take (width s + n) =
      List.replicate (width s) ' ' ++ (s.word ++ laid width l).take n := by
  have h : (List.replicate (width s) ' ' ++ (s.word ++ laid width l)).take
      ((List.replicate (width s) ' ').length + n) =
        List.replicate (width s) ' ' ++ (s.word ++ laid width l).take n :=
    List.take_length_add_append n
  rwa [List.length_replicate, ← laid_cons] at h

/-- Up to a letter the two lines are spaced alike. -/
theorem spacedAlike_take (h : Aligned l i j) (hpos : ∀ s ∈ l, 0 < s.gap) :
    Text.SpacedAlike ((laid gap l).take (i + 1)) ((laid wide l).take (j + 1)) := by
  induction h with
  | @here s l n hn =>
    have hgap : 0 < s.gap := hpos s List.mem_cons_self
    have hspaces := Text.SpacedAlike.of_spaces (Or.inr ⟨hgap, Nat.add_pos_left hgap s.added⟩)
    rw [Nat.add_assoc, Nat.add_assoc, take_laid_cons, take_laid_cons,
      List.take_append_of_le_length hn, List.take_append_of_le_length hn]
    exact hspaces.append (.refl _)
  | @later s l i j h ih =>
    have hgap : 0 < s.gap := hpos s List.mem_cons_self
    have hspaces := Text.SpacedAlike.of_spaces (Or.inr ⟨hgap, Nat.add_pos_left hgap s.added⟩)
    have hrest := ih fun t ht => hpos t (List.mem_cons_of_mem s ht)
    simp only [Nat.add_assoc, take_laid_cons, List.take_length_add_append]
    exact hspaces.append ((Text.SpacedAlike.refl s.word).append hrest)

/-- The part of a line behind a column that is behind its first gap. -/
theorem drop_laid_cons (width : Stretch → Nat) (s : Stretch) (l : List Stretch) (m n : Nat) :
    ((laid width (s :: l)).take (width s + n)).drop (width s + m) =
      ((s.word ++ laid width l).take n).drop m := by
  have h : (List.replicate (width s) ' ' ++ (s.word ++ laid width l).take n).drop
      ((List.replicate (width s) ' ').length + m) = ((s.word ++ laid width l).take n).drop m :=
    List.drop_length_add_append m
  rwa [List.length_replicate, ← take_laid_cons] at h

/-- **What stands between two letters is the same up to spaces.** -/
theorem between (h : Aligned l i j) (h' : Aligned l i' j') (hle : i ≤ i') (hsep : Separated l) :
    Text.SpacedAlike (((laid gap l).take (i' + 1)).drop i)
      (((laid wide l).take (j' + 1)).drop j) := by
  induction h generalizing i' j' with
  | @here s l m hm =>
    cases h' with
    | @here _ _ n hn =>
      -- Both letters belong to the same word.
      rw [Nat.add_assoc, Nat.add_assoc, drop_laid_cons, drop_laid_cons,
        List.take_append_of_le_length hn, List.take_append_of_le_length hn]
      exact .refl _
    | @later _ _ i j h' =>
      -- The end of the first word is followed by everything up to the second letter.
      have hrest := h'.spacedAlike_take hsep.gap_pos
      simp only [Nat.add_assoc, drop_laid_cons, List.take_length_add_append]
      rw [List.drop_append_of_le_length hm.le, List.drop_append_of_le_length hm.le]
      exact (Text.SpacedAlike.refl _).append hrest
  | @later s l i j h ih =>
    cases h' with
    | @here _ _ n hn => omega
    | @later _ _ i' j' h' =>
      have hrest := ih h' (by omega) hsep.tail
      simp only [Nat.add_assoc, drop_laid_cons, List.take_length_add_append,
        List.drop_length_add_append]
      exact hrest

end Aligned

end ChapterLayout.Stretch
