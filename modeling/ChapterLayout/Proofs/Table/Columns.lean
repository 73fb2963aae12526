import Mathlib.Algebra.BigOperators.Ring.Finset
import ChapterLayout.Proofs.Table.Shares
import ChapterLayout.Table.Box

/-! # The columns of a table

What the widths of columns promise, and how wide the box around them is:

* **`length_columnWidths`**, **`minColumnWidth_le`** — there is a width for every column, and none
  is less than ten;
* **`sum_columnWidths_le`** — together they exceed the room by ten at most for every column that is
  *narrow*: one whose part of the room is less than ten. Such a column gets ten nonetheless, and the
  others give nothing back. Where all columns get what they ask for, none is narrow
  (`narrowCount_eq_zero`);
* **`width_border`** — a border is as wide as its columns with three more for each, one more, and
  the indentation;
* **`columnWidths_fit`** — hence a table without narrow columns fits if the least widths fit. -/

namespace ChapterLayout.Table

variable {headers : Row} {rows : List Row} {cells : Row} {maxWidth indentWidth free : Int}
  {widths : List Int} {naturals : List Nat} {natural total : Nat} {indent : Text}
  {corners : Corners}

/-! ## (1) One width for every column -/

/-- The greatest of some numbers. -/
theorem le_foldl_max (ns : List Nat) (least : Nat) :
    least ≤ ns.foldl max least ∧ ∀ n ∈ ns, n ≤ ns.foldl max least := by
  induction ns generalizing least with
  | nil => simp
  | cons n ns ih =>
    obtain ⟨hleast, hmem⟩ := ih (max least n)
    rw [List.foldl_cons]
    constructor
    · exact (le_max_left _ _).trans hleast
    · intro k hk
      rcases List.mem_cons.1 hk with rfl | hk
      · exact (le_max_right _ _).trans hleast
      · exact hmem k hk

/-- No row has more cells than there are columns. -/
theorem length_le_columnCount (h : cells ∈ headers :: rows) :
    cells.length ≤ columnCount headers rows :=
  (le_foldl_max _ _).2 _ (List.mem_map_of_mem h)

/-- There is a natural width for every column. -/
@[simp] theorem length_naturalWidths :
    (naturalWidths headers rows).length = columnCount headers rows := by
  simp [naturalWidths]

/-- No column asks for less than the least width. -/
theorem minColumnWidth_le_natural (h : natural ∈ naturalWidths headers rows) :
    minColumnWidth ≤ natural := by
  obtain ⟨column, -, rfl⟩ := List.mem_map.1 h
  exact (le_foldl_max _ _).1

/-- **There is a width for every column.** -/
@[simp] theorem length_columnWidths :
    (columnWidths headers rows maxWidth indentWidth).length = columnCount headers rows := by
  unfold columnWidths
  dsimp only
  split <;> simp

/-- **No column gets less than the least width.** -/
theorem minColumnWidth_le {width : Int}
    (h : width ∈ columnWidths headers rows maxWidth indentWidth) :
    (minColumnWidth : Int) ≤ width := by
  unfold columnWidths at h
  dsimp only at h
  split at h
  · obtain ⟨natural, hnatural, rfl⟩ := List.mem_map.1 h
    exact Int.ofNat_le.2 (minColumnWidth_le_natural hnatural)
  · obtain ⟨natural, -, rfl⟩ := List.mem_map.1 h
    exact le_max_right _ _

/-- A table with columns has widths. -/
theorem columnWidths_ne_nil (h : 0 < columnCount headers rows) :
    columnWidths headers rows maxWidth indentWidth ≠ [] := by
  apply List.ne_nil_of_length_pos
  rwa [length_columnWidths]

/-- No width is negative. -/
theorem columnWidths_nonneg : ∀ w ∈ columnWidths headers rows maxWidth indentWidth, 0 ≤ w := by
  intro w hw
  exact (Int.natCast_nonneg minColumnWidth).trans (minColumnWidth_le hw)

/-! ## (2) The sum of the widths -/

/-- What is left of a line of `columns` cells for their texts, without the indentation, the borders,
and a space on both sides of each cell. -/
def freeWidth (columns : Nat) (maxWidth indentWidth : Int) : Int :=
  maxWidth - indentWidth - (columns + 1) - 2 * columns

/-- The room is what is left of the line, if that is enough for the least widths. -/
theorem room_eq_freeWidth {columns : Nat}
    (h : (columns * minColumnWidth : Int) ≤ freeWidth columns maxWidth indentWidth) :
    room columns maxWidth indentWidth = freeWidth columns maxWidth indentWidth := by
  unfold room freeWidth at *
  rw [Int.mul_comm 2] at *
  exact max_eq_left h

/-- Whether a column that asks for `natural` of `total` is narrow: its part of the room is less than
the least width. -/
def IsNarrow (total : Nat) (free : Int) (natural : Nat) : Prop :=
  natural * free < (minColumnWidth * total : Nat)

instance (total : Nat) (free : Int) (natural : Nat) : Decidable (IsNarrow total free natural) :=
  inferInstanceAs (Decidable (natural * free < (minColumnWidth * total : Nat)))

/-- The number of narrow columns, by the widths that all columns ask for. -/
def narrowCount (naturals : List Nat) (free : Int) : Nat :=
  naturals.countP fun natural => IsNarrow naturals.sum free natural

/-- Where all columns get what they ask for, none is narrow. -/
theorem narrowCount_eq_zero (h : (naturals.sum : Int) ≤ free)
    (hleast : ∀ natural ∈ naturals, minColumnWidth ≤ natural) : narrowCount naturals free = 0 := by
  rw [narrowCount, List.countP_eq_zero]
  intro natural hmem
  rw [decide_eq_true_eq, IsNarrow, Int.not_lt, Int.natCast_mul]
  have hle : (minColumnWidth : Int) ≤ natural := Int.ofNat_le.2 (hleast natural hmem)
  exact Int.mul_le_mul hle h (Int.natCast_nonneg _) (Int.natCast_nonneg _)

/-- A column is narrow just if its part of the room is less than ten. -/
theorem isNarrow_iff (hpos : 0 < total) :
    IsNarrow total free natural ↔ (natural : ℚ) / total * free < 10 := by
  have hpos' : (0 : ℚ) < total := Nat.cast_pos.2 hpos
  rw [IsNarrow, div_mul_eq_mul_div, div_lt_iff₀ hpos']
  exact_mod_cast Iff.rfl

/-- A column gets hardly more than its part of the room, unless it is narrow, and ten then. -/
theorem width_le (hle : natural ≤ total) (hpos : 0 < total) (hfree : 0 ≤ free)
    (hlt : free ≤ 2 ^ 50) :
    ((max (share natural total free) minColumnWidth : Int) : ℚ) ≤
      natural / total * (free + 1 / 2) + 1 / 2 ^ 60 +
        if IsNarrow total free natural then 10 else 0 := by
  have hshare := share_le hle hpos hfree hlt
  have hfree' : (0 : ℚ) ≤ free := Int.cast_nonneg hfree
  have hpart : (natural : ℚ) / total ≤ 1 :=
    div_le_one_of_le₀ (Nat.cast_le.2 hle) (Nat.cast_nonneg total)
  have hpart_nonneg : (0 : ℚ) ≤ natural / total := by positivity
  have hten : ((minColumnWidth : Int) : ℚ) = 10 := by norm_num [minColumnWidth]
  rw [Int.cast_max, hten]
  by_cases hnarrow : IsNarrow total free natural
  · rw [if_pos hnarrow]
    -- A share of a part below ten is ten at most, since it is an integer.
    have hlt : (share natural total free : ℚ) < 11 := by
      have hbelow := (isNarrow_iff hpos).1 hnarrow
      norm_num at hshare ⊢
      linarith
    have hlt' : share natural total free < 11 := by exact_mod_cast hlt
    have hle' : (share natural total free : ℚ) ≤ 10 := by exact_mod_cast Int.lt_add_one_iff.1 hlt'
    have hnonneg : (0 : ℚ) ≤ natural / total * (free + 1 / 2) + 1 / 2 ^ 60 := by positivity
    apply max_le
    · linarith
    · linarith
  · rw [if_neg hnarrow]
    rw [isNarrow_iff hpos, not_lt] at hnarrow
    apply max_le
    · linarith
    · norm_num
      linarith

/-- Columns, one after the other. -/
theorem sum_map_width_le (hle : ∀ natural ∈ naturals, natural ≤ total) (hpos : 0 < total)
    (hfree : 0 ≤ free) (hlt : free ≤ 2 ^ 50) :
    ((naturals.map fun natural => max (share natural total free) minColumnWidth).sum : ℚ) ≤
      naturals.sum / total * (free + 1 / 2) + naturals.length * (1 / 2 ^ 60) +
        10 * (naturals.countP fun natural => IsNarrow total free natural) := by
  induction naturals with
  | nil => simp
  | cons natural naturals ih =>
    obtain ⟨hfirst, hle⟩ := List.forall_mem_cons.1 hle
    have hwidth := width_le hfirst hpos hfree hlt
    have hrest := ih hle
    rw [List.countP_cons, List.map_cons, List.sum_cons, List.sum_cons, List.length_cons,
      Int.cast_add]
    simp only [decide_eq_true_eq]
    push_cast at hwidth hrest ⊢
    rw [add_div, add_mul]
    -- A narrow column gets the least width, and any other its share.
    split at hwidth
    · rename_i hnarrow
      rw [if_pos hnarrow]
      linarith
    · rename_i hwide
      rw [if_neg hwide]
      linarith

/-- Columns that the room is shared out to. -/
theorem sum_shares_le (hleast : (naturals.length * minColumnWidth : Int) ≤ free)
    (hshared : free < naturals.sum) (hlt : free ≤ 2 ^ 50) :
    (naturals.map fun natural => max (share natural naturals.sum free) minColumnWidth).sum ≤
      free + 10 * narrowCount naturals free := by
  have hten : (naturals.length * 10 : Int) ≤ free := hleast
  have hfree : 0 ≤ free := by omega
  have hpos : 0 < naturals.sum := by omega
  have hle := sum_map_width_le (fun natural h => List.le_sum_of_mem h) hpos hfree hlt
  rw [div_self (Nat.cast_ne_zero.2 hpos.ne'), one_mul] at hle
  have hlength : (naturals.length : ℚ) * (1 / 2 ^ 60) ≤ 1 / 2 ^ 10 := by
    have hle : (naturals.length : Int) ≤ 2 ^ 50 := by omega
    have hle' : (naturals.length : ℚ) ≤ 2 ^ 50 := by exact_mod_cast hle
    calc (naturals.length : ℚ) * (1 / 2 ^ 60) ≤ 2 ^ 50 * (1 / 2 ^ 60) := by gcongr
      _ = 1 / 2 ^ 10 := by norm_num
  -- What rounding adds to all columns is less than one column.
  have hsum : ((naturals.map fun natural =>
      max (share natural naturals.sum free) minColumnWidth).sum : ℚ) <
        free + 10 * narrowCount naturals free + 1 := by
    refine hle.trans_lt ?_
    rw [narrowCount]
    linarith
  have hsum' : (naturals.map fun natural =>
      max (share natural naturals.sum free) minColumnWidth).sum <
        free + 10 * narrowCount naturals free + 1 := by
    exact_mod_cast hsum
  exact Int.lt_add_one_iff.1 hsum'

/-- **The columns of a table** exceed the room by ten at most for every narrow one. -/
theorem sum_columnWidths_le
    (hfree : (columnCount headers rows * minColumnWidth : Int) ≤
      freeWidth (columnCount headers rows) maxWidth indentWidth)
    (hlt : freeWidth (columnCount headers rows) maxWidth indentWidth ≤ 2 ^ 50 ∨
      ((naturalWidths headers rows).sum : Int) ≤
        freeWidth (columnCount headers rows) maxWidth indentWidth) :
    (columnWidths headers rows maxWidth indentWidth).sum ≤
      freeWidth (columnCount headers rows) maxWidth indentWidth +
        10 * narrowCount (naturalWidths headers rows)
          (freeWidth (columnCount headers rows) maxWidth indentWidth) := by
  have htotal : (naturalWidths headers rows).foldr (fun w n => w + n) 0 =
      (naturalWidths headers rows).sum := rfl
  rw [columnWidths, length_naturalWidths, room_eq_freeWidth hfree, htotal]
  set free := freeWidth (columnCount headers rows) maxWidth indentWidth
  set naturals := naturalWidths headers rows with hnaturals
  split
  · have hsum : (naturals.map Int.ofNat).sum = naturals.sum := (Nat.cast_list_sum naturals).symm
    omega
  · rename_i hshared
    have hleast : (naturals.length * minColumnWidth : Int) ≤ free := by
      rw [hnaturals, length_naturalWidths]
      exact hfree
    exact sum_shares_le hleast (Int.not_le.1 hshared) (hlt.resolve_right hshared)

/-! ## (3) The width of the box -/

/-- The width of the box: the indentation, a bar, and for every column its text, a space on both
sides of it, and a bar. -/
def boxWidth (widths : List Int) (indentWidth : Int) : Int :=
  indentWidth + 1 + (widths.map (· + 3)).sum

/-- The width of the box is that of the indentation, of the texts, and of a bar and two spaces each.
-/
theorem boxWidth_eq (widths : List Int) (indentWidth : Int) :
    boxWidth widths indentWidth = indentWidth + 1 + widths.sum + 3 * widths.length := by
  induction widths with
  | nil => simp [boxWidth]
  | cons w widths ih =>
    simp only [boxWidth, List.map_cons, List.sum_cons, List.length_cons] at ih ⊢
    push_cast
    linarith

/-- Whether each corner takes one column. -/
def Corners.IsSingle (corners : Corners) : Prop :=
  Text.width corners.left = 1 ∧ Text.width corners.middle = 1 ∧ Text.width corners.right = 1

instance (corners : Corners) : Decidable corners.IsSingle :=
  inferInstanceAs (Decidable (_ ∧ _))

/-- The corners of every border take one column each. -/
theorem isSingle_of_mem : ∀ corners ∈ [Corners.top, .inner, .bottom], corners.IsSingle := by
  decide +kernel

/-- A character repeated is that many times as wide. -/
theorem width_replicate (n : Nat) (c : Char) :
    Text.width (List.replicate n c) = n * Text.charWidth c := by
  induction n with
  | zero => simp
  | succ n ih => rw [List.replicate_succ, Text.width_cons, ih, Nat.succ_mul, Nat.add_comm]

/-- Pieces with a separator between them, and one more separator. -/
theorem width_intercalate (sep : Text) {pieces : List Text} (h : pieces ≠ []) :
    Text.width (sep.intercalate pieces) + Text.width sep =
      (pieces.map fun piece => Text.width piece + Text.width sep).sum := by
  induction pieces with
  | nil => exact absurd rfl h
  | cons piece pieces ih =>
    cases pieces with
    | nil => simp
    | cons next pieces =>
      have hjoin : sep.intercalate (piece :: next :: pieces) =
          piece ++ (sep ++ sep.intercalate (next :: pieces)) := by
        simp [List.intercalate]
      rw [hjoin, Text.width_append, Text.width_append, List.map_cons, List.sum_cons,
        ← ih (List.cons_ne_nil next pieces)]
      omega

/-- The strokes of a border, each with the corner behind it. -/
theorem sum_width_strokes (hnonneg : ∀ w ∈ widths, 0 ≤ w) :
    (((widths.map fun w => List.replicate (strokes w).toNat '─').map fun piece =>
      Text.width piece + 1).sum : Int) = (widths.map (· + 3)).sum := by
  have hstroke : Text.charWidth '─' = 1 := by decide +kernel
  induction widths with
  | nil => rfl
  | cons w widths ih =>
    obtain ⟨hw, hnonneg⟩ := List.forall_mem_cons.1 hnonneg
    simp only [List.map_cons, List.sum_cons, width_replicate, hstroke, Nat.mul_one] at ih ⊢
    rw [← ih hnonneg, Nat.cast_add, strokes]
    omega

/-- **A border** is as wide as the box. -/
theorem width_border (hwidths : widths ≠ []) (hnonneg : ∀ w ∈ widths, 0 ≤ w)
    (hcorners : corners.IsSingle) :
    (Text.width (border widths indent corners) : Int) = boxWidth widths (Text.width indent) := by
  obtain ⟨hleft, hmiddle, hright⟩ := hcorners
  have hne : (widths.map fun w => List.replicate (strokes w).toNat '─') ≠ [] := by
    simpa using hwidths
  have hpieces := width_intercalate corners.middle hne
  rw [hmiddle] at hpieces
  rw [border, boxWidth, ← sum_width_strokes hnonneg, ← hpieces]
  simp only [Text.width_append, hleft, hright]
  omega

/-! ## (4) Tables that fit -/

/-- **A table fits if it can**, up to ten columns for every narrow one: each column gets the least
width at least, and without narrow columns neither the texts exceed the room nor a border the width
of the page. -/
theorem columnWidths_fit (hcolumns : 0 < columnCount headers rows)
    (hfree : (columnCount headers rows * minColumnWidth : Int) ≤
      freeWidth (columnCount headers rows) maxWidth indentWidth)
    (hlt : freeWidth (columnCount headers rows) maxWidth indentWidth ≤ 2 ^ 50 ∨
      ((naturalWidths headers rows).sum : Int) ≤
        freeWidth (columnCount headers rows) maxWidth indentWidth) :
    let widths := columnWidths headers rows maxWidth indentWidth
    let free := freeWidth (columnCount headers rows) maxWidth indentWidth
    let excess : Int := 10 * narrowCount (naturalWidths headers rows) free
    widths.length = columnCount headers rows ∧
      (∀ w ∈ widths, (minColumnWidth : Int) ≤ w) ∧
      widths.sum ≤ free + excess ∧
      ∀ indent, (Text.width indent : Int) = indentWidth →
        ∀ corners ∈ [Corners.top, .inner, .bottom],
          (Text.width (border widths indent corners) : Int) ≤ maxWidth + excess := by
  intro widths free excess
  have hlength : widths.length = columnCount headers rows := length_columnWidths
  have hleast : ∀ w ∈ widths, (minColumnWidth : Int) ≤ w := fun w hw => minColumnWidth_le hw
  have hsum : widths.sum ≤ free + excess := sum_columnWidths_le hfree hlt
  refine ⟨hlength, hleast, hsum, ?_⟩
  intro indent hindent corners hcorners
  have hborder :
      (Text.width (border widths indent corners) : Int) = boxWidth widths indentWidth := by
    rw [← hindent]
    exact width_border (columnWidths_ne_nil hcolumns) columnWidths_nonneg
      (isSingle_of_mem corners hcorners)
  -- The room is what the box around the columns leaves of the page.
  have hroom : free = maxWidth - indentWidth - (columnCount headers rows + 1) -
      2 * columnCount headers rows := rfl
  rw [hborder, boxWidth_eq, hlength]
  omega

/-- Two columns that ask for more than the room is shared out between them. -/
theorem columnWidths_fit_shared :
    let rows : List Row :=
      [["alpha beta gamma delta".toList, "one two three four five".toList], [['x']]]
    let widths := columnWidths [] rows 40 4
    let indent : Text := "│   ".toList
    0 < columnCount [] rows ∧
      (columnCount [] rows * minColumnWidth : Int) ≤ freeWidth (columnCount [] rows) 40 4 ∧
      (naturalWidths [] rows).sum = 45 ∧ freeWidth (columnCount [] rows) 40 4 = 29 ∧
      narrowCount (naturalWidths [] rows) 29 = 0 ∧
      widths = [14, 14] ∧ widths.length = 2 ∧ (∀ w ∈ widths, (minColumnWidth : Int) ≤ w) ∧
      widths.sum ≤ 29 ∧
      ∀ corners ∈ [Corners.top, .inner, .bottom],
        (Text.width (border widths indent corners) : Int) ≤ 40 := by
  intro rows widths indent
  have hcolumns : columnCount [] rows = 2 := by decide
  have hfree : (columnCount [] rows * minColumnWidth : Int) ≤
      freeWidth (columnCount [] rows) 40 4 := by decide
  have hroom : freeWidth (columnCount [] rows) 40 4 = 29 := by decide
  have hnarrow : narrowCount (naturalWidths [] rows) 29 = 0 := by decide +kernel
  have hlt : freeWidth (columnCount [] rows) 40 4 ≤ 2 ^ 50 := by decide
  have hpos : 0 < columnCount [] rows := by decide
  obtain ⟨hlength, hleast, hsum, hborders⟩ := columnWidths_fit hpos hfree (.inl hlt)
  rw [hroom, hnarrow] at hsum hborders
  exact ⟨hpos, hfree, by decide +kernel, hroom, hnarrow, by decide +kernel,
    hlength.trans hcolumns, hleast, hsum, hborders indent (by decide +kernel)⟩

/-- A narrow column beside one that asks for more: both could have the least width, and the table
would fit, but the wide one gets its whole part of the room. -/
theorem columnWidths_fit_narrow :
    let rows : List Row := [["aaaaaa bbbbbb".toList, ['b']]]
    0 < columnCount [] rows ∧
      (columnCount [] rows * minColumnWidth : Int) ≤ freeWidth (columnCount [] rows) 27 0 ∧
      freeWidth (columnCount [] rows) 27 0 = 20 ∧ columnWidths [] rows 27 0 = [11, 10] ∧
      ¬(columnWidths [] rows 27 0).sum ≤ freeWidth (columnCount [] rows) 27 0 ∧
      ¬(Text.width (border (columnWidths [] rows 27 0) [] .top) : Int) ≤ 27 := by
  decide +kernel

end ChapterLayout.Table
