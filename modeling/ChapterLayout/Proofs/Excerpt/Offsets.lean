import ChapterLayout.Proofs.Excerpt.Find

/-! # Offsets and columns

An offset in the joined lines is the start of a line and a column of it, and the two conversions go
back and forth between them:

* **`Offset.ofOffset_lineStart`** — the column of a line that exists is found under its offset;
* **`Offset.exists_lineStart`** — every offset of the joined lines is the offset of such a column;
* **`Offset.exists_lineStart_lt`** — that of a character has a column that is not the end of its
  line;
* **`Offset.ofOffset_of_length_le`** — offsets beyond the text are found at the end of the last
  line;
* **`Offset.ofOffset_toOffset`** — positions and offsets are inverse to each other. -/

namespace ChapterLayout.Offset

variable {lines : List Line} {line : Line} {i j c n : Nat}

/-! ## (1) Where lines start -/

/-- The offset of the first column of a line. -/
def lineStart (lines : List Line) (i : Nat) : Nat :=
  (lines.take i).foldr (fun l n => l.length + 1 + n) 0

/-- The first line starts where the text does. -/
@[simp] theorem lineStart_zero (lines : List Line) : lineStart lines 0 = 0 := by
  simp [lineStart]

/-- A line more puts the starts of the others behind its text and its line feed. -/
@[simp] theorem lineStart_cons_succ (line : Line) (lines : List Line) (i : Nat) :
    lineStart (line :: lines) (i + 1) = line.length + 1 + lineStart lines i := rfl

/-- The offset of a column counts from the start of its line. -/
theorem toOffset_natCast (lines : List Line) (i c : Nat) :
    toOffset lines i c = (lineStart lines i + c : Nat) := rfl

/-- A line starts behind the end of every line before it. -/
theorem lineStart_add_length_lt (hline : lines[i]? = some line) (hlt : i < j)
    (hj : j < lines.length) : lineStart lines i + line.length < lineStart lines j := by
  induction lines generalizing i j with
  | nil => simp at hline
  | cons first lines ih =>
    obtain ⟨j, rfl⟩ : ∃ k, j = k + 1 := ⟨j - 1, by omega⟩
    cases i with
    | zero =>
      obtain rfl : first = line := by simpa using hline
      rw [lineStart_zero, lineStart_cons_succ]
      omega
    | succ i =>
      have hrest := ih (by simpa using hline) (Nat.lt_of_succ_lt_succ hlt)
        (Nat.lt_of_succ_lt_succ hj)
      rw [lineStart_cons_succ, lineStart_cons_succ]
      omega

/-! ## (2) Back and forth -/

/-- A column of a line that exists is found under its offset, where lines are counted from a
number. -/
theorem ofOffsetFrom_lineStart (index : Int) (hline : lines[i]? = some line)
    (hc : c ≤ line.length) :
    ofOffsetFrom index lines (lineStart lines i + c : Nat) = (index + i, (c : Int)) := by
  induction lines generalizing index i with
  | nil => simp at hline
  | cons first lines ih =>
    cases i with
    | zero =>
      obtain rfl : first = line := by simpa using hline
      rw [lineStart_zero, Nat.zero_add, ofOffsetFrom_first index lines hc]
      simp
    | succ i =>
      rw [List.getElem?_cons_succ] at hline
      cases lines with
      | nil => simp at hline
      | cons next lines =>
        rw [lineStart_cons_succ, Nat.add_assoc, ofOffsetFrom_next, ih (index + 1) hline]
        congr 1
        omega

/-- **A column of a line** that exists is found under its offset. -/
theorem ofOffset_lineStart (hline : lines[i]? = some line) (hc : c ≤ line.length) :
    ofOffset lines (lineStart lines i + c : Nat) = ((i : Int), (c : Int)) := by
  rw [ofOffset, ofOffsetFrom_lineStart 0 hline hc, Int.zero_add]

/-- **Every offset** of the joined lines is that of a column of a line. -/
theorem exists_lineStart (hne : lines ≠ []) (hn : n ≤ (Text.joinLines lines).length) :
    ∃ i line c, lines[i]? = some line ∧ c ≤ line.length ∧ n = lineStart lines i + c := by
  induction lines generalizing n with
  | nil => exact absurd rfl hne
  | cons first lines ih =>
    by_cases hfirst : n ≤ first.length
    · exact ⟨0, first, n, rfl, hfirst, by rw [lineStart_zero, Nat.zero_add]⟩
    · cases lines with
      | nil =>
        rw [Text.joinLines, List.intercalate_singleton] at hn
        exact absurd hn hfirst
      | cons next lines =>
        rw [Text.joinLines_cons_cons, List.length_append, List.length_cons] at hn
        obtain ⟨i, line, c, hline, hc, hrest⟩ :=
          ih (n := n - (first.length + 1)) (List.cons_ne_nil _ _) (by omega)
        refine ⟨i + 1, line, c, hline, hc, ?_⟩
        rw [lineStart_cons_succ]
        omega

/-! ## (3) Characters and columns -/

/-- Behind the last character of a line stands a line feed, or nothing. -/
theorem eq_lineFeed_of_lineStart {s t : Text} {d : Char} (hline : lines[i]? = some line)
    (hs : Text.joinLines lines = s ++ d :: t)
    (hlength : s.length = lineStart lines i + line.length) : d = '\n' := by
  induction lines generalizing i s with
  | nil => simp at hline
  | cons first lines ih =>
    cases lines with
    | nil =>
      -- The only line is all of the text.
      obtain ⟨rfl, rfl⟩ : i = 0 ∧ first = line := by
        cases i with
        | zero => exact ⟨rfl, by simpa using hline⟩
        | succ i => simp at hline
      rw [Text.joinLines, List.intercalate_singleton] at hs
      rw [lineStart_zero, hs, List.length_append, List.length_cons] at hlength
      omega
    | cons next lines =>
      rw [Text.joinLines_cons_cons] at hs
      cases i with
      | zero =>
        obtain rfl : first = line := by simpa using hline
        rw [lineStart_zero, Nat.zero_add] at hlength
        have htail := (List.append_inj hs.symm hlength).2
        exact (List.cons.inj htail).1
      | succ i =>
        rw [lineStart_cons_succ, Nat.add_assoc] at hlength
        obtain ⟨u, rfl, hu⟩ : ∃ u, s = first ++ '\n' :: u ∧ Text.joinLines (next :: lines) =
            u ++ d :: t := by
          have hprefix : first ++ ['\n'] <+: s := by
            refine List.prefix_of_prefix_length_le ⟨Text.joinLines (next :: lines), ?_⟩
              ⟨d :: t, hs.symm⟩ ?_
            · simp
            · rw [List.length_append, List.length_singleton]
              omega
          obtain ⟨u, rfl⟩ := hprefix
          refine ⟨u, by simp, ?_⟩
          simpa using hs
        refine ih (i := i) (by simpa using hline) hu ?_
        rw [List.length_append, List.length_cons] at hlength
        omega

/-- **A character that is no line feed** stands in a column of a line. -/
theorem exists_lineStart_lt {s t : Text} {d : Char} (hs : Text.joinLines lines = s ++ d :: t)
    (hd : d ≠ '\n') : ∃ i line c, lines[i]? = some line ∧ c < line.length ∧
      lineStart lines i + c = s.length := by
  have hne : lines ≠ [] := by
    rintro rfl
    simp [Text.joinLines] at hs
  have hle : s.length ≤ (Text.joinLines lines).length := by
    rw [hs, List.length_append]
    omega
  obtain ⟨i, line, c, hline, hc, hlength⟩ := exists_lineStart hne hle
  refine ⟨i, line, c, hline, Nat.lt_of_le_of_ne hc fun hend => ?_, hlength.symm⟩
  exact hd (eq_lineFeed_of_lineStart hline hs (by rw [hlength, hend]))

/-! ## (4) Positions and offsets -/

/-- An offset that is not within the text is found at the end of the last line, where lines are
counted from a number. -/
theorem ofOffsetFrom_of_length_le (index : Int) (hne : lines ≠ [])
    (hn : (Text.joinLines lines).length ≤ n) :
    ofOffsetFrom index lines n =
      (index + ((lines.length : Int) - 1), ((lines.getLast hne).length : Int)) := by
  -- Only the last line is not behind the offset, so that the others are counted off one by one.
  induction lines generalizing index n with
  | nil => exact absurd rfl hne
  | cons first lines ih =>
    cases lines with
    | nil =>
      rw [Text.joinLines, List.intercalate_singleton] at hn
      rcases Nat.eq_or_lt_of_le hn with rfl | hlt
      · rw [ofOffsetFrom_first index [] (Nat.le_refl _)]
        simp
      · have hbeyond : ¬(n : Int) ≤ first.length := by omega
        simp [ofOffsetFrom, hbeyond]
    | cons next lines =>
      rw [Text.joinLines_cons_cons, List.length_append, List.length_cons] at hn
      obtain ⟨m, rfl⟩ : ∃ m, n = first.length + 1 + m := ⟨n - (first.length + 1), by omega⟩
      have hlast : (first :: next :: lines).getLast hne =
          (next :: lines).getLast (List.cons_ne_nil _ _) := List.getLast_cons _
      rw [ofOffsetFrom_next, ih (index + 1) (List.cons_ne_nil _ _) (by omega), hlast]
      congr 1
      simp only [List.length_cons]
      omega

/-- **Beyond the text** there is only the end of the last line. -/
theorem ofOffset_of_length_le (hne : lines ≠ []) (hn : (Text.joinLines lines).length ≤ n) :
    ofOffset lines n = ((lines.length : Int) - 1, ((lines.getLast hne).length : Int)) := by
  rw [ofOffset, ofOffsetFrom_of_length_le 0 hne hn, Int.zero_add]

/-- **Positions and offsets are inverse to each other.** A column of a line, its end included, is
found again under its offset; every offset of the joined lines is that of the position it is found
at; and all greater offsets are found at the end of the last line. -/
theorem ofOffset_toOffset (hne : lines ≠ []) :
    (∀ (i : Nat) (line : Line) (c : Nat), lines[i]? = some line → c ≤ line.length →
        ofOffset lines (toOffset lines i c) = ((i : Int), (c : Int))) ∧
      (∀ n : Nat, n ≤ (Text.joinLines lines).length →
        toOffset lines (ofOffset lines n).1 (ofOffset lines n).2 = n) ∧
      ∀ n : Nat, (Text.joinLines lines).length < n →
        ofOffset lines n = ((lines.length : Int) - 1, ((lines.getLast hne).length : Int)) := by
  have hposition : ∀ (i : Nat) (line : Line) (c : Nat), lines[i]? = some line → c ≤ line.length →
      ofOffset lines (toOffset lines i c) = ((i : Int), (c : Int)) := by
    intro i line c hline hc
    rw [toOffset_natCast]
    exact ofOffset_lineStart hline hc
  refine ⟨hposition, fun n hn => ?_, fun n hn => ofOffset_of_length_le hne hn.le⟩
  -- The offset is that of some column, and so of the one it is found at.
  obtain ⟨i, line, c, hline, hc, rfl⟩ := exists_lineStart hne hn
  rw [ofOffset_lineStart hline hc, toOffset_natCast]

/-- The line feed behind a line belongs to that line, also if the line is empty. -/
theorem ofOffset_toOffset_blank :
    let lines : List Line := ["ab".toList, [], "cde".toList]
    ofOffset lines (toOffset lines 0 2) = (0, 2) ∧ ofOffset lines (toOffset lines 1 0) = (1, 0) ∧
      toOffset lines (ofOffset lines 2).1 (ofOffset lines 2).2 = 2 ∧
      toOffset lines (ofOffset lines 3).1 (ofOffset lines 3).2 = 3 ∧
      ofOffset lines 99 = (2, 3) := by
  intro lines
  have hne : lines ≠ [] := List.cons_ne_nil _ _
  obtain ⟨hposition, hoffset, hbeyond⟩ := ofOffset_toOffset hne
  exact ⟨hposition 0 _ 2 rfl (by decide), hposition 1 _ 0 rfl (by decide), hoffset 2 (by decide),
    hoffset 3 (by decide), hbeyond 99 (by decide)⟩

end ChapterLayout.Offset
