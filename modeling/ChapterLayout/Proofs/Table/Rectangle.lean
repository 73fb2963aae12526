import ChapterLayout.Proofs.Lists
import ChapterLayout.Proofs.Table.Cell
import ChapterLayout.Proofs.Table.Columns
import ChapterLayout.Proofs.Text.Lines

/-! # A drawn table is a rectangle

The lines of a table are read back by the columns of the terminal they stand in, whatever characters
are in them:

* **`Text.inColumns`** — the characters that stand in a range of columns;
* **`columnText_boxLine`** — between the bars of a line of the box stand the texts it was made of,
  if each is as wide as its column;
* **`shows_row`** — if the words of a row fit into their columns, the lines of the row are exactly
  as wide as the box, and what stands in a column of them is the text of the cell;
* **`draw_eq`** — a table is its rows, the header first, with borders around and between them;
* **`draw_rectangle`** — hence all lines are equally wide, and every cell can be read back. -/

namespace ChapterLayout

/-! ## (1) Texts by columns -/

namespace Text

/-- The characters of a text that stand in the columns from `start` up to `stop`, where `column` is
the column of the first one. A character without width stands between two columns, and belongs to a
range that ends there as well as to one that starts there. -/
def inColumns (start stop : Int) : (column : Int) → Text → Text
  | _, [] => []
  | column, c :: s =>
    if start ≤ column ∧ column + charWidth c ≤ stop then
      c :: inColumns start stop (column + charWidth c) s
    else inColumns start stop (column + charWidth c) s

variable {start stop column : Int} {s t : Text}

/-- What stands in columns of two texts stands there in the first or in the second. -/
theorem inColumns_append (s t : Text) : inColumns start stop column (s ++ t) =
    inColumns start stop column s ++ inColumns start stop (column + width s) t := by
  induction s generalizing column with
  | nil => simp [inColumns]
  | cons c s ih =>
    have hcolumn : column + charWidth c + width s = column + width (c :: s) := by
      rw [width_cons]
      omega
    rw [List.cons_append, inColumns, inColumns, ih, hcolumn]
    split <;> rfl

/-- A text inside the range. -/
theorem inColumns_inside (hstart : start ≤ column) (hstop : column + width s ≤ stop) :
    inColumns start stop column s = s := by
  induction s generalizing column with
  | nil => rfl
  | cons c s ih =>
    rw [width_cons] at hstop
    have hin : start ≤ column ∧ column + charWidth c ≤ stop := by omega
    rw [inColumns, if_pos hin, ih (by omega) (by omega)]

/-- A text that ends before the range. -/
theorem inColumns_before (h : column + width s < start) : inColumns start stop column s = [] := by
  induction s generalizing column with
  | nil => rfl
  | cons c s ih =>
    rw [width_cons] at h
    have hout : ¬(start ≤ column ∧ column + charWidth c ≤ stop) := by omega
    rw [inColumns, if_neg hout, ih (by omega)]

/-- A text that starts behind the range. -/
theorem inColumns_behind (h : stop < column) : inColumns start stop column s = [] := by
  induction s generalizing column with
  | nil => rfl
  | cons c s ih =>
    have hout : ¬(start ≤ column ∧ column + charWidth c ≤ stop) := by omega
    rw [inColumns, if_neg hout, ih (by omega)]

/-- A text between two spaces, of which one ends and the other starts where it does. -/
theorem inColumns_between (before t after : Text) (hcolumn : column + width before + 1 = start) :
    inColumns start (start + width t) column (before ++ ' ' :: (t ++ ' ' :: after)) = t := by
  have hspace : ∀ {s : Text} {column : Int}, column + 1 ≤ start ∨ start + width t ≤ column →
      inColumns start (start + width t) column (' ' :: s) =
        inColumns start (start + width t) (column + 1) s := by
    intro s column h
    rw [inColumns, charWidth_space, if_neg (by omega)]
    rfl
  rw [inColumns_append, inColumns_before (by omega), List.nil_append, hspace (.inl (by omega)),
    inColumns_append, inColumns_inside (by omega) (by omega), hspace (.inr (by omega)),
    inColumns_behind (by omega), List.append_nil]

end Text

/-! ## (2) Lines of the box -/

namespace Table

variable {headers : Row} {rows : List Row} {cells : Row} {maxWidth : Int} {widths : List Int}
  {indent line : Text} {texts : List Text} {j : Nat}

/-- The text of a column between spaces, with the bar behind it. -/
def boxCell (s : Text) : Text := ' ' :: s ++ [' ', '│']

/-- A line of the box with the given texts in its columns. -/
def boxLine (indent : Text) (texts : List Text) : Line := indent ++ '│' :: texts.flatMap boxCell

/-- A cell is three columns wider than its text. -/
theorem width_boxCell (s : Text) : Text.width (boxCell s) = Text.width s + 3 := by
  have hbar : Text.charWidth '│' = 1 := by decide +kernel
  simp [boxCell, Text.width_append, hbar]
  omega

/-- Cells are three columns wider than their texts, each of them. -/
theorem width_boxCells (texts : List Text) :
    (Text.width (texts.flatMap boxCell) : Int) =
      ((texts.map fun s => (Text.width s : Int)).map (· + 3)).sum := by
  induction texts with
  | nil => rfl
  | cons s texts ih =>
    rw [List.flatMap_cons, Text.width_append, width_boxCell, List.map_cons, List.map_cons,
      List.sum_cons, ← ih]
    omega

/-- **A line of the box** is as wide as the box. -/
theorem width_boxLine (indent : Text) (texts : List Text) :
    (Text.width (boxLine indent texts) : Int) =
      boxWidth (texts.map fun s => (Text.width s : Int)) (Text.width indent) := by
  have hbar : Text.charWidth '│' = 1 := by decide +kernel
  rw [boxLine, boxWidth, ← width_boxCells, Text.width_append, Text.width_cons, hbar]
  omega

/-- Where the text of a column starts: behind the indentation, the bars and spaces of the columns
before it, and its own space. -/
def columnStart (widths : List Int) (indent : Text) (j : Nat) : Int :=
  boxWidth (widths.take j) (Text.width indent) + 1

/-- What stands in a column of a line. -/
def columnText (widths : List Int) (indent : Text) (j : Nat) (line : Line) : Text :=
  Text.inColumns (columnStart widths indent j)
    (columnStart widths indent j + widths.getD j 0) 0 line

/-- **In a column of a line of the box** stands the text the line was made of. -/
theorem columnText_boxLine (h : texts.map (fun s => (Text.width s : Int)) = widths)
    (hj : j < texts.length) : columnText widths indent j (boxLine indent texts) = texts[j] := by
  have hline : boxLine indent texts = boxLine indent (texts.take j) ++
      ' ' :: (texts[j] ++ ' ' :: '│' :: (texts.drop (j + 1)).flatMap boxCell) := by
    have hsplit : texts.flatMap boxCell = (texts.take j).flatMap boxCell ++
        (boxCell texts[j] ++ (texts.drop (j + 1)).flatMap boxCell) := by
      rw [← List.flatMap_cons, ← List.flatMap_append, List.cons_getElem_drop_succ,
        List.take_append_drop]
    rw [boxLine, boxLine, hsplit]
    simp [boxCell]
  have hwidth : widths.getD j 0 = Text.width texts[j] := by
    subst h
    simp [hj]
  rw [hline, columnText, hwidth]
  apply Text.inColumns_between
  rw [width_boxLine, columnStart, ← h, List.map_take]
  omega

/-! ## (3) Rows -/

/-- Whether the words of a row are no wider than their columns. -/
def WordsFit (widths : List Int) (cells : Row) : Prop :=
  ∀ p ∈ List.zip cells widths, ∀ word ∈ Text.words Text.isBlank p.1, (Text.width word : Int) ≤ p.2

instance (widths : List Int) (cells : Row) : Decidable (WordsFit widths cells) :=
  inferInstanceAs (Decidable (∀ p ∈ List.zip cells widths, ∀ word ∈ Text.words Text.isBlank p.1,
    (Text.width word : Int) ≤ p.2))

/-- Whether lines show the cells of a row. -/
structure Shows (widths : List Int) (indent : Text) (cells : Row) (block : List Line) : Prop where
  /-- Every cell has a column. -/
  length_le : cells.length ≤ widths.length
  /-- There is a line, even if there are no cells. -/
  ne_nil : block ≠ []
  /-- The lines consist of the box and of what stands in its columns. -/
  framed : ∀ line ∈ block,
    line = boxLine indent ((List.range widths.length).map fun j => columnText widths indent j line)
  /-- What stands in a column is the text of the cell, and nothing if there is no cell. -/
  cells : ∀ j < widths.length,
    Text.squeeze ([' '].intercalate (block.map (columnText widths indent j))) =
      Text.squeeze (cells.getD j [])

/-- The lines of a cell in the column `j`. -/
theorem getElem_wrapRow (hlength : cells.length ≤ widths.length) (hj : j < widths.length)
    (hj' : j < (wrapRow cells widths).length) :
    (wrapRow cells widths)[j] = wrapCell (cells.getD j []) widths[j] := by
  by_cases hcell : j < cells.length
  · simp [wrapRow, hcell, hj]
  · have hempty : wrapCell [] widths[j] = [[]] := wrapCell_of_words_eq_nil _ rfl
    have hright : (List.zipWith wrapCell cells widths).length ≤ j := by
      rw [List.length_zipWith]
      omega
    simp only [wrapRow]
    rw [List.getElem_append_right hright]
    simp [hcell, hempty]

/-- A row has wrapped lines for every column. -/
@[simp] theorem length_wrapRow (hlength : cells.length ≤ widths.length) :
    (wrapRow cells widths).length = widths.length := by
  simp [wrapRow, hlength]

/-- The texts of a line of a row, padded to their columns. -/
def rowTexts (cells : Row) (widths : List Int) (index : Nat) : List Text :=
  (rowLine (wrapRow cells widths) widths index).map fun (s, width) => padCell s width

/-- The lines of a row are those of the box with the texts of the row. -/
theorem row_eq (cells : Row) (widths : List Int) (indent : Text) :
    row cells widths indent = (List.range (rowHeight (wrapRow cells widths))).map fun index =>
      boxLine indent (rowTexts cells widths index) := by
  simp [row, boxLine, rowTexts, boxCell, List.flatMap_map]

/-- A line of a row has a text for every column. -/
@[simp] theorem length_rowTexts (hlength : cells.length ≤ widths.length) (index : Nat) :
    (rowTexts cells widths index).length = widths.length := by
  simp [rowTexts, rowLine, hlength]

/-- The text in the column `j` of a line. -/
theorem getElem_rowTexts (hlength : cells.length ≤ widths.length) (hj : j < widths.length)
    {index : Nat} (hj' : j < (rowTexts cells widths index).length) :
    (rowTexts cells widths index)[j] =
      padCell ((wrapCell (cells.getD j []) widths[j]).getD index []) widths[j] := by
  have hcell : j < (wrapRow cells widths).length := by rwa [length_wrapRow hlength]
  simp only [rowTexts, rowLine, List.getElem_map, List.getElem_zip]
  rw [getElem_wrapRow hlength hj hcell]

/-- **A padded text** fills its column, unless it is wider. -/
theorem width_padCell_eq_max (s : Text) (width : Int) :
    (Text.width (padCell s width) : Int) = max (Text.width s : Int) width := by
  rw [padCell, Text.width_append, Text.spaces, Text.width_replicate_space, padding]
  omega

/-- A text no wider than its column is padded to the width of the column. -/
theorem width_padCell {s : Text} {width : Int} (h : (Text.width s : Int) ≤ width) :
    (Text.width (padCell s width) : Int) = width := by
  rw [width_padCell_eq_max, max_eq_right h]

/-- Padding adds no words. -/
theorem words_padCell (s : Text) (width : Int) :
    Text.words Text.isBlank (padCell s width) = Text.words Text.isBlank s := by
  have hblank : ∀ c ∈ Text.spaces (padding s width), Text.isBlank c = true := by
    intro c hc
    rw [List.eq_of_mem_replicate hc]
    rfl
  rw [padCell, Text.words_append_of_head fun c hc => hblank c (List.mem_of_head? hc),
    Text.words_eq_nil_iff.2 hblank, List.append_nil]

/-- In a row whose words fit, each word fits in the column of its cell. -/
theorem WordsFit.width_le (hwords : WordsFit widths cells) (hj : j < widths.length) :
    ∀ word ∈ Text.words Text.isBlank (cells.getD j []), (Text.width word : Int) ≤ widths[j] := by
  by_cases hcell : j < cells.length
  · have hmem : (cells[j], widths[j]) ∈ List.zip cells widths :=
      List.mem_iff_getElem.2 ⟨j, by simp [hcell, hj], by simp⟩
    simpa [hcell] using hwords _ hmem
  · simp [hcell]

/-- In a row whose words fit, every text of a line is as wide as its column. -/
theorem map_width_rowTexts (hlength : cells.length ≤ widths.length)
    (hnonneg : ∀ w ∈ widths, 0 ≤ w) (hwords : WordsFit widths cells) (index : Nat) :
    (rowTexts cells widths index).map (fun s => (Text.width s : Int)) = widths := by
  apply List.ext_getElem
  · simp [hlength]
  · intro j hj hj'
    rw [List.getElem_map, getElem_rowTexts hlength hj']
    apply width_padCell
    have hw := hnonneg _ (List.getElem_mem hj')
    by_cases hindex : index < (wrapCell (cells.getD j []) widths[j]).length
    · rw [← List.getElem_eq_getD (h := hindex)]
      exact width_le_of_mem_wrapCell hw (hwords.width_le hj') (List.getElem_mem hindex)
    · -- The cell has fewer lines than the row.
      rw [List.getD_eq_default _ _ (Nat.le_of_not_lt hindex)]
      exact hw

/-- The column `j` of a line of a row. -/
theorem columnText_rowTexts (hlength : cells.length ≤ widths.length)
    (hnonneg : ∀ w ∈ widths, 0 ≤ w) (hwords : WordsFit widths cells) (hj : j < widths.length)
    (index : Nat) : columnText widths indent j (boxLine indent (rowTexts cells widths index)) =
      padCell ((wrapCell (cells.getD j []) widths[j]).getD index []) widths[j] := by
  have hj' : j < (rowTexts cells widths index).length := by rwa [length_rowTexts hlength]
  rw [columnText_boxLine (map_width_rowTexts hlength hnonneg hwords index) hj',
    getElem_rowTexts hlength hj]

/-- **A row** whose words fit shows its cells. -/
theorem shows_row (hwidths : widths ≠ []) (hnonneg : ∀ w ∈ widths, 0 ≤ w)
    (hlength : cells.length ≤ widths.length) (hwords : WordsFit widths cells) :
    Shows widths indent cells (row cells widths indent) where
  length_le := hlength
  ne_nil := by
    have hpos : 0 < widths.length := List.length_pos_of_ne_nil hwidths
    have hfirst : 0 < (wrapRow cells widths).length := by rwa [length_wrapRow hlength]
    -- The row is as high as its highest cell, and the first cell has a line.
    have hheight : 0 < rowHeight (wrapRow cells widths) := by
      refine Nat.lt_of_lt_of_le ?_ ((le_foldl_max _ 0).2 _
        (List.mem_map_of_mem (List.getElem_mem hfirst)))
      rw [getElem_wrapRow hlength hpos hfirst]
      exact List.length_pos_of_ne_nil (wrapCell_ne_nil _ _)
    rw [row_eq]
    simp
    omega
  framed := by
    intro line hline
    rw [row_eq] at hline
    obtain ⟨index, -, rfl⟩ := List.mem_map.1 hline
    congr 1
    apply List.ext_getElem
    · simp [hlength]
    -- What stands in a column is what was put there, as the texts are as wide as their columns.
    · intro j hj hj'
      rw [List.getElem_map, List.getElem_range,
        columnText_boxLine (map_width_rowTexts hlength hnonneg hwords index) hj]
  cells := by
    intro j hj
    have hcell : j < (wrapRow cells widths).length := by rwa [length_wrapRow hlength]
    -- The lines of the cell are among those of the row, and what is below them is blank.
    have hheight : (wrapCell (cells.getD j []) widths[j]).length ≤
        rowHeight (wrapRow cells widths) := by
      rw [← getElem_wrapRow hlength hj hcell]
      exact (le_foldl_max _ 0).2 _ (List.mem_map_of_mem (List.getElem_mem hcell))
    have htexts : (row cells widths indent).map (columnText widths indent j) =
        (List.range (rowHeight (wrapRow cells widths))).map fun index =>
          padCell ((wrapCell (cells.getD j []) widths[j]).getD index []) widths[j] := by
      rw [row_eq, List.map_map]
      exact List.map_congr_left fun index _ =>
        columnText_rowTexts hlength hnonneg hwords hj index
    rw [Text.squeeze, Text.squeeze, htexts, Text.words_joined rfl, List.flatMap_map]
    simp only [words_padCell]
    rw [Lists.flatMap_range_getD _ (Text.words Text.isBlank) rfl hheight, flatMap_words_wrapCell]

/-! ## (4) Tables -/

/-- The rows of a table from top to bottom, the header first if there is one. -/
def sourceRows (headers : Row) (rows : List Row) : List Row :=
  if headers.isEmpty then rows else headers :: rows

/-- The rows that are shown are the header or rows of the table. -/
theorem mem_of_mem_sourceRows (h : cells ∈ sourceRows headers rows) : cells ∈ headers :: rows := by
  unfold sourceRows at h
  split at h
  · exact List.mem_cons_of_mem _ h
  · exact h

/-- **A table is its rows**, with a border between them, above and below. A header without rows
below it has its border nonetheless. -/
theorem draw_eq (hcolumns : 0 < columnCount headers rows)
    (hwidths : columnWidths headers rows maxWidth (Text.width indent) = widths) :
    draw headers rows maxWidth indent =
      [border widths indent .top] ++
      [border widths indent .inner].intercalate
        ((sourceRows headers rows).map (row · widths indent)) ++
      (if rows.isEmpty then [border widths indent .inner] else []) ++
      [border widths indent .bottom] := by
  have hne : widths ≠ [] := by
    rw [← hwidths]
    exact columnWidths_ne_nil hcolumns
  simp only [draw, hwidths, List.isEmpty_eq_false_iff.2 hne, body, sourceRows]
  cases headers with
  | nil =>
    cases rows with
    | nil => simp [columnCount] at hcolumns
    | cons cells rows => simp
  | cons cell headers =>
    cases rows with
    | nil => simp [List.intercalate]
    | cons cells rows => simp [List.intercalate]

/-- In a row whose words fit, every line is as wide as the box. -/
theorem width_of_mem_row (hnonneg : ∀ w ∈ widths, 0 ≤ w) (hlength : cells.length ≤ widths.length)
    (hwords : WordsFit widths cells) (h : line ∈ row cells widths indent) :
    (Text.width line : Int) = boxWidth widths (Text.width indent) := by
  rw [row_eq] at h
  obtain ⟨index, -, rfl⟩ := List.mem_map.1 h
  rw [width_boxLine, map_width_rowTexts hlength hnonneg hwords]

/-- **The lines of a table** whose words fit are as wide as the box. -/
theorem width_of_mem_draw (hcolumns : 0 < columnCount headers rows)
    (hwidths : columnWidths headers rows maxWidth (Text.width indent) = widths)
    (hlength : ∀ cells ∈ sourceRows headers rows, cells.length ≤ widths.length)
    (hwords : ∀ cells ∈ sourceRows headers rows, WordsFit widths cells)
    (h : line ∈ draw headers rows maxWidth indent) :
    (Text.width line : Int) = boxWidth widths (Text.width indent) := by
  have hnonneg : ∀ w ∈ widths, 0 ≤ w := by
    rw [← hwidths]
    exact columnWidths_nonneg
  have hborder : ∀ corners ∈ [Corners.top, .inner, .bottom],
      (Text.width (border widths indent corners) : Int) = boxWidth widths (Text.width indent) := by
    intro corners hcorners
    rw [← hwidths] at hnonneg ⊢
    exact width_border (columnWidths_ne_nil hcolumns) hnonneg (isSingle_of_mem corners hcorners)
  simp only [List.forall_mem_cons] at hborder
  obtain ⟨htop, hinner, hbottom, -⟩ := hborder
  have hbody : ∀ line ∈ [border widths indent .inner].intercalate
      ((sourceRows headers rows).map (row · widths indent)),
      (Text.width line : Int) = boxWidth widths (Text.width indent) := by
    apply Lists.forall_mem_intercalate
    · simpa using hinner
    · intro block hblock line hline
      obtain ⟨cells, hcells, rfl⟩ := List.mem_map.1 hblock
      exact width_of_mem_row hnonneg (hlength cells hcells) (hwords cells hcells) hline
  rw [draw_eq hcolumns hwidths] at h
  simp only [List.mem_append, List.mem_singleton] at h
  rcases h with ((rfl | h) | h) | rfl
  · exact htop
  · exact hbody line h
  · -- The border below a header without rows.
    split at h
    · rw [List.mem_singleton.1 h]
      exact hinner
    · simp at h
  · exact hbottom

/-- **A table is a rectangle that keeps its cells.** If every word of a cell fits into its column,
all lines are equally wide. The rows are shown one below the other, the header first, with a border
between them, above and below, and a cell that a row lacks is shown empty. -/
theorem draw_rectangle (hcolumns : 0 < columnCount headers rows)
    (hwords : ∀ cells ∈ headers :: rows,
      WordsFit (columnWidths headers rows maxWidth (Text.width indent)) cells) :
    let widths := columnWidths headers rows maxWidth (Text.width indent)
    (∀ line ∈ draw headers rows maxWidth indent,
      (Text.width line : Int) = boxWidth widths (Text.width indent)) ∧
    ∃ blocks, List.Forall₂ (Shows widths indent) (sourceRows headers rows) blocks ∧
      draw headers rows maxWidth indent =
        [border widths indent .top] ++ [border widths indent .inner].intercalate blocks ++
        (if rows.isEmpty then [border widths indent .inner] else []) ++
        [border widths indent .bottom] := by
  intro widths
  have hlength : ∀ cells ∈ sourceRows headers rows, cells.length ≤ widths.length := by
    intro cells hcells
    rw [length_columnWidths]
    exact length_le_columnCount (mem_of_mem_sourceRows hcells)
  have hfit : ∀ cells ∈ sourceRows headers rows, WordsFit widths cells := by
    intro cells hcells
    exact hwords cells (mem_of_mem_sourceRows hcells)
  constructor
  · intro line hline
    exact width_of_mem_draw hcolumns rfl hlength hfit hline
  · refine ⟨(sourceRows headers rows).map (row · widths indent), ?_, draw_eq hcolumns rfl⟩
    rw [List.forall₂_map_right_iff, List.forall₂_same]
    intro cells hcells
    exact shows_row (columnWidths_ne_nil hcolumns) columnWidths_nonneg (hlength cells hcells)
      (hfit cells hcells)

/-- A cell that is broken into lines, one with a wide character, and a row that lacks a cell, in a
box that is indented. -/
theorem draw_rectangle_indented :
    let rows : List Row := [["alpha beta gamma".toList, "漢字 x".toList], [['y']]]
    let indent : Text := "│   ".toList
    let widths : List Int := [15, 10]
    (0 < columnCount [] rows ∧
      ∀ cells ∈ [] :: rows, WordsFit (columnWidths [] rows 36 (Text.width indent)) cells) ∧
    columnWidths [] rows 36 (Text.width indent) = widths ∧
    (∀ line ∈ draw [] rows 36 indent, (Text.width line : Int) = 36) ∧
    ∃ blocks, List.Forall₂ (Shows widths indent) rows blocks ∧
      draw [] rows 36 indent =
        [border widths indent .top] ++ [border widths indent .inner].intercalate blocks ++
          [border widths indent .bottom] := by
  intro rows indent widths
  have hwidths : columnWidths [] rows 36 (Text.width indent) = widths := by decide +kernel
  have hbox : boxWidth widths (Text.width indent) = 36 := by decide +kernel
  have hcolumns : 0 < columnCount [] rows := by decide
  have hwords : ∀ cells ∈ [] :: rows,
      WordsFit (columnWidths [] rows 36 (Text.width indent)) cells := by
    decide +kernel
  obtain ⟨hline, blocks, hshows, hdraw⟩ := draw_rectangle hcolumns hwords
  rw [hwidths] at hline hshows hdraw
  rw [hbox] at hline
  refine ⟨⟨hcolumns, hwords⟩, hwidths, hline, blocks, hshows, ?_⟩
  rw [hdraw]
  simp [rows]

end Table

end ChapterLayout
