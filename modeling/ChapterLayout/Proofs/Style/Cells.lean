import Mathlib.Data.List.Basic
import ChapterLayout.Flow.Word
import ChapterLayout.Navigation.Lookup
import ChapterLayout.Proofs.Text.Letters

/-! # Visible characters and the records over them

A cell is a visible character at a column of a line. `visible lines` lists the cells of lines in
reading order, and `covering records cell` the records over a cell, in the order in which they were
made.

Cells and records follow the two ways in which a word comes on a line:

* **`map_covering_place`** — a word placed behind all others is covered by its own records only;
* **`map_covering_move`** — a word that moves to the next line together with its records keeps what
  covers it, and so does everything before it. -/

namespace ChapterLayout

/-- A visible character at a column of a line. -/
structure Cell where
  line : Int
  col : Int
  char : Char
  deriving DecidableEq, Repr

namespace Cell

/-- Whether the cell stands on an earlier line, or further left on the same one. -/
def Before (cell : Cell) (line col : Int) : Prop :=
  cell.line < line ∨ cell.line = line ∧ cell.col < col

/-- The cell on another line, with its column moved by `shift`. -/
def move (line shift : Int) (cell : Cell) : Cell := ⟨line, cell.col + shift, cell.char⟩

end Cell

/-- The cells of a text that starts at a column of a line. Spaces are not visible. -/
def textCells (line : Int) : (col : Int) → Text → List Cell
  | _, [] => []
  | col, c :: s =>
    if Text.isSpace c then textCells line (col + 1) s
    else ⟨line, col, c⟩ :: textCells line (col + 1) s

/-- The cells of lines of which the first has the number `index`. -/
def visibleFrom (index : Int) : List Line → List Cell
  | [] => []
  | line :: lines => textCells index 0 line ++ visibleFrom (index + 1) lines

/-- The visible characters of lines, in reading order. -/
def visible (lines : List Line) : List Cell := visibleFrom 0 lines

/-- The records over a cell. -/
def covering {ρ : Type} [Positioned ρ] (records : List ρ) (cell : Cell) : List ρ :=
  records.filter (Page.covers · cell.line cell.col)

/-! ## (1) The cells of a text -/

variable {line col : Int} {s t : Text} {cell : Cell} {lines : List Line}

/-- The cells of two texts are those of the first and those of the second behind it. -/
theorem textCells_append (line col : Int) (s t : Text) :
    textCells line col (s ++ t) = textCells line col s ++ textCells line (col + s.length) t := by
  induction s generalizing col with
  | nil => simp [textCells]
  | cons c s ih =>
    have hcol : col + 1 + (s.length : Int) = col + ((c :: s).length : Int) := by
      rw [List.length_cons]
      push_cast
      omega
    rw [List.cons_append, textCells, textCells, ih, hcol]
    by_cases hc : Text.isSpace c = true
    · rw [if_pos hc, if_pos hc]
    · rw [if_neg hc, if_neg hc, List.cons_append]

/-- Spaces have no cells. -/
theorem textCells_spaces (h : ∀ c ∈ s, Text.isSpace c = true) : textCells line col s = [] := by
  induction s generalizing col with
  | nil => rfl
  | cons c s ih =>
    rw [textCells, if_pos (h c List.mem_cons_self)]
    exact ih fun d hd => h d (List.mem_cons_of_mem _ hd)

/-- A word shows all its characters. -/
theorem map_char_textCells (h : ∀ c ∈ s, Text.isSpace c = false) :
    (textCells line col s).map Cell.char = s := by
  induction s generalizing col with
  | nil => rfl
  | cons c s ih =>
    have hc : ¬Text.isSpace c = true := by simp [h c List.mem_cons_self]
    rw [textCells, if_neg hc, List.map_cons, ih fun d hd => h d (List.mem_cons_of_mem _ hd)]

/-- A word has as many cells as characters. -/
theorem map_const_textCells {β : Type} (h : ∀ c ∈ s, Text.isSpace c = false) (b : β) :
    (textCells line col s).map (fun _ => b) = s.map fun _ => b := by
  -- Both sides map the characters of the cells.
  have hchar : (textCells line col s).map Cell.char = s := map_char_textCells h
  conv_rhs => rw [← hchar, List.map_map]
  rfl

/-- A word shows a character at each of its columns. -/
theorem exists_mem_textCells (h : ∀ c ∈ s, Text.isSpace c = false) {k : Int} (hfrom : col ≤ k)
    (hto : k < col + s.length) :
    ∃ cell ∈ textCells line col s, cell.line = line ∧ cell.col = k := by
  induction s generalizing col with
  | nil => simp only [List.length_nil] at hto; omega
  | cons c s ih =>
    have hc : ¬Text.isSpace c = true := by simp [h c List.mem_cons_self]
    rw [textCells, if_neg hc]
    by_cases hk : k = col
    · exact ⟨⟨line, col, c⟩, List.mem_cons_self, rfl, hk.symm⟩
    · rw [List.length_cons] at hto
      push_cast at hto
      have hfrom' : col + 1 ≤ k := by omega
      have hto' : k < col + 1 + s.length := by omega
      obtain ⟨cell, hcell, hplace⟩ :=
        ih (fun d hd => h d (List.mem_cons_of_mem _ hd)) hfrom' hto'
      exact ⟨cell, List.mem_cons_of_mem _ hcell, hplace⟩

/-- The cells of a text stand in its columns. -/
theorem bounds_of_mem_textCells (h : cell ∈ textCells line col s) :
    cell.line = line ∧ col ≤ cell.col ∧ cell.col < col + s.length := by
  induction s generalizing col with
  | nil => simp [textCells] at h
  | cons c s ih =>
    rw [textCells] at h
    -- The cells behind the first character start one column later.
    have hrest : cell ∈ textCells line (col + 1) s →
        cell.line = line ∧ col ≤ cell.col ∧ cell.col < col + ((c :: s).length : Int) := by
      intro hmem
      obtain ⟨hline, hfrom, hto⟩ := ih hmem
      rw [List.length_cons]
      push_cast
      exact ⟨hline, by omega, by omega⟩
    by_cases hc : Text.isSpace c = true
    · rw [if_pos hc] at h
      exact hrest h
    · rw [if_neg hc, List.mem_cons] at h
      rcases h with rfl | h
      · rw [List.length_cons]
        push_cast
        exact ⟨rfl, by simp, by omega⟩
      · exact hrest h

/-- A text at another place shows the same characters there. -/
theorem textCells_move (line line' col shift : Int) (s : Text) :
    textCells line' (col + shift) s = (textCells line col s).map (Cell.move line' shift) := by
  induction s generalizing col with
  | nil => rfl
  | cons c s ih =>
    have hcol : col + shift + 1 = col + 1 + shift := by omega
    rw [textCells, textCells, hcol, ih]
    by_cases hc : Text.isSpace c = true
    · rw [if_pos hc, if_pos hc]
    · rw [if_neg hc, if_neg hc, List.map_cons]
      rfl

/-- Trailing spaces are not visible. -/
theorem textCells_trimRight (line col : Int) (s : Text) :
    textCells line col (Text.trimRight Text.isSpace s) = textCells line col s := by
  obtain ⟨blanks, hs, hblanks⟩ := Text.exists_trimRight_append s
  conv_rhs => rw [hs, textCells_append, textCells_spaces hblanks, List.append_nil]

/-! ## (2) The cells of lines -/

/-- The cells of lines are those of the first lines and then those of the others. -/
theorem visibleFrom_append (index : Int) (lines others : List Line) :
    visibleFrom index (lines ++ others) =
      visibleFrom index lines ++ visibleFrom (index + lines.length) others := by
  induction lines generalizing index with
  | nil => simp [visibleFrom]
  | cons line lines ih =>
    have hindex : index + 1 + (lines.length : Int) = index + ((line :: lines).length : Int) := by
      rw [List.length_cons]
      push_cast
      omega
    rw [List.cons_append, visibleFrom, visibleFrom, ih, hindex, List.append_assoc]

/-- One line more. -/
theorem visible_concat (lines : List Line) (line : Line) :
    visible (lines ++ [line]) = visible lines ++ textCells lines.length 0 line := by
  rw [visible, visible, visibleFrom_append, Int.zero_add, visibleFrom, visibleFrom, List.append_nil]

/-- A cell is on one of the lines. -/
theorem line_lt_of_mem_visibleFrom {index : Int} (h : cell ∈ visibleFrom index lines) :
    cell.line < index + lines.length := by
  induction lines generalizing index with
  | nil => simp [visibleFrom] at h
  | cons line lines ih =>
    rw [visibleFrom, List.mem_append] at h
    rw [List.length_cons]
    push_cast
    rcases h with h | h
    · have := (bounds_of_mem_textCells h).1
      omega
    · have := ih h
      omega

/-- The cells of lines stand before the next line. -/
theorem line_lt_of_mem_visible (h : cell ∈ visible lines) : cell.line < lines.length := by
  have := line_lt_of_mem_visibleFrom h
  omega

/-- Blank lines show nothing. -/
theorem visibleFrom_blanks {index : Int} (h : ∀ line ∈ lines, line = []) :
    visibleFrom index lines = [] := by
  induction lines generalizing index with
  | nil => rfl
  | cons line lines ih =>
    rw [visibleFrom, h line List.mem_cons_self, textCells, List.nil_append]
    exact ih fun other hother => h other (List.mem_cons_of_mem _ hother)

/-! ## (3) The records over a cell -/

section Records

variable {ρ : Type} [Positioned ρ] {β : Type} {records emitted : List ρ} {cells : List Cell}

/-- Whether the records end on earlier lines, or at the latest at a column of a line. -/
def EndBefore (records : List ρ) (line col : Int) : Prop :=
  ∀ r ∈ records, Positioned.line r < line ∨ Positioned.line r = line ∧ Positioned.endCol r ≤ col

/-- Whether the records stand on a line and start at the earliest at a column of it. -/
def StartFrom (records : List ρ) (line col : Int) : Prop :=
  ∀ r ∈ records, Positioned.line r = line ∧ col ≤ Positioned.startCol r

/-- Records behind a mark start at a column of a line, and those before it end there or earlier. -/
structure MarkedAt (records : List ρ) (mark : Nat) (line col : Int) : Prop where
  before : EndBefore (records.take mark) line col
  behind : StartFrom (records.drop mark) line col
  mark_le : mark ≤ records.length

/-- A record covers the columns of its line from its start up to its end. -/
theorem covers_iff {r : ρ} : Page.covers r line col = true ↔
    Positioned.line r = line ∧ Positioned.startCol r ≤ col ∧ col < Positioned.endCol r := by
  simp [Page.covers, and_assoc]

/-- The records over a cell are those of the first list and then those of the second. -/
theorem covering_append (records others : List ρ) (cell : Cell) :
    covering (records ++ others) cell = covering records cell ++ covering others cell := by
  rw [covering, List.filter_append]
  rfl

/-- Records that end before a column end before every later one. -/
theorem EndBefore.mono (h : EndBefore records line col) {line' col' : Int}
    (hle : line < line' ∨ line = line' ∧ col ≤ col') : EndBefore records line' col' := by
  intro r hr
  have := h r hr
  omega

/-- Records that start at a column still do when more of them are added. -/
theorem StartFrom.append (h : StartFrom records line col) (hemitted : StartFrom emitted line col) :
    StartFrom (records ++ emitted) line col := by
  intro r hr
  exact (List.mem_append.1 hr).elim (h r) (hemitted r)

/-- Records that end before a column still do when more of them are added. -/
theorem EndBefore.append (h : EndBefore records line col) (hemitted : EndBefore emitted line col) :
    EndBefore (records ++ emitted) line col := by
  intro r hr
  exact (List.mem_append.1 hr).elim (h r) (hemitted r)

/-- The mark behind all records. -/
theorem EndBefore.markedAt (h : EndBefore records line col) :
    MarkedAt records records.length line col := by
  refine ⟨?_, ?_, Nat.le_refl _⟩
  · rw [List.take_length]
    exact h
  · rw [List.drop_length]
    exact fun r hr => absurd hr List.not_mem_nil

/-- More records behind the mark. -/
theorem MarkedAt.append {mark : Nat} (h : MarkedAt records mark line col)
    (hemitted : StartFrom emitted line col) : MarkedAt (records ++ emitted) mark line col := by
  refine ⟨?_, ?_, h.mark_le.trans (List.length_append ▸ Nat.le_add_right _ _)⟩
  · rw [List.take_append_of_le_length h.mark_le]
    exact h.before
  · rw [List.drop_append_of_le_length h.mark_le]
    exact h.behind.append hemitted

/-- Records that end before a cell are not over it. -/
theorem EndBefore.covering_eq_nil (h : EndBefore records line col) (hcell : ¬cell.Before line col) :
    covering records cell = [] := by
  rw [covering, List.filter_eq_nil_iff]
  intro r hr hcovers
  obtain ⟨hline, -, hend⟩ := covers_iff.1 hcovers
  rw [Cell.Before] at hcell
  have := h r hr
  omega

/-- Records that start after a cell are not over it. -/
theorem StartFrom.covering_eq_nil (h : StartFrom records line col) (hcell : cell.Before line col) :
    covering records cell = [] := by
  rw [covering, List.filter_eq_nil_iff]
  intro r hr hcovers
  obtain ⟨hline, hstart, -⟩ := covers_iff.1 hcovers
  rw [Cell.Before] at hcell
  have := h r hr
  omega

/-- **A word at the end.** The cells before it are under the records from before, and those of the
word under its own records. -/
theorem map_covering_place {word : Text} (value : ρ → β)
    (hcells : ∀ cell ∈ cells, cell.Before line col)
    (hrecords : EndBefore records line col)
    (hemitted : ∀ r ∈ emitted, Positioned.line r = line ∧ Positioned.startCol r = col ∧
      Positioned.endCol r = col + word.length) :
    (cells ++ textCells line col word).map
        (fun cell => (covering (records ++ emitted) cell).map value) =
      cells.map (fun cell => (covering records cell).map value) ++
        (textCells line col word).map fun _ => emitted.map value := by
  have hstart : StartFrom emitted line col := fun r hr =>
    ⟨(hemitted r hr).1, Int.le_of_eq (hemitted r hr).2.1.symm⟩
  rw [List.map_append]
  congr 1
  · -- The new records start behind these cells.
    refine List.map_congr_left fun cell hcell => ?_
    rw [covering_append, hstart.covering_eq_nil (hcells cell hcell), List.append_nil]
  · -- The records from before end ahead of the word, and each of the new ones spans it.
    refine List.map_congr_left fun cell hcell => ?_
    obtain ⟨hline, hfrom, hto⟩ := bounds_of_mem_textCells hcell
    have hafter : ¬cell.Before line col := by
      rw [Cell.Before]
      omega
    have hall : covering emitted cell = emitted := by
      rw [covering, List.filter_eq_self]
      intro r hr
      obtain ⟨hrline, hrstart, hrend⟩ := hemitted r hr
      exact covers_iff.2 ⟨by omega, by omega, by omega⟩
    rw [covering_append, hrecords.covering_eq_nil hafter, List.nil_append, hall]

/-- A relocation puts records on the given line, and moves their columns. -/
def Relocates (relocated : ρ → ρ) (line shift : Int) : Prop :=
  ∀ r, Positioned.line (relocated r) = line ∧
    Positioned.startCol (relocated r) = Positioned.startCol r + shift ∧
    Positioned.endCol (relocated r) = Positioned.endCol r + shift

/-- Records that are relocated together with a cell stay over it. -/
theorem covering_relocated {relocated : ρ → ρ} {line' shift : Int}
    (hmove : Relocates relocated line' shift) (hrecords : StartFrom records line col)
    (hcell : cell.line = line) :
    covering (records.map relocated) (cell.move line' shift) =
      (covering records cell).map relocated := by
  rw [covering, covering, List.filter_map]
  congr 1
  refine List.filter_congr fun r hr => ?_
  obtain ⟨hline, hstart, hend⟩ := hmove r
  have hrline := (hrecords r hr).1
  rw [Bool.eq_iff_iff, Function.comp_apply, covers_iff, covers_iff, hline, hstart, hend, hrline,
    hcell]
  simp only [Cell.move, Int.add_le_add_iff_right, Int.add_lt_add_iff_right]

/-- **A word that moves** from `col` of a line to `col + shift` of a later one, with the records
behind the mark. The cells before the word, and those of the word, are under the same records as
before. -/
theorem map_covering_move {word : Text} {mark : Nat} {relocated : ρ → ρ} {line' shift : Int}
    (value : ρ → β) (hmove : Relocates relocated line' shift)
    (hvalue : ∀ r, value (relocated r) = value r) (hlater : line < line')
    (hcells : ∀ cell ∈ cells, cell.Before line col) (hmark : MarkedAt records mark line col) :
    (cells ++ textCells line' (col + shift) word).map (fun cell =>
        (covering (records.take mark ++ (records.drop mark).map relocated) cell).map value) =
      (cells ++ textCells line col word).map fun cell => (covering records cell).map value := by
  have hsplit : ∀ cell, covering records cell =
      covering (records.take mark) cell ++ covering (records.drop mark) cell := by
    intro cell
    rw [← covering_append, List.take_append_drop]
  have hmoved : StartFrom ((records.drop mark).map relocated) line' (col + shift) := by
    intro r hr
    obtain ⟨r, hr', rfl⟩ := List.mem_map.1 hr
    obtain ⟨hline, hstart, -⟩ := hmove r
    have := (hmark.behind r hr').2
    exact ⟨hline, by omega⟩
  rw [List.map_append, List.map_append, textCells_move line line', List.map_map]
  congr 1
  -- The cells before the word are covered by records before the mark only, and the moved records
  -- are further on.
  · refine List.map_congr_left fun cell hcell => ?_
    have hcell' := hcells cell hcell
    have hearlier : cell.Before line' (col + shift) := by
      rw [Cell.Before] at hcell' ⊢
      omega
    rw [covering_append, hmoved.covering_eq_nil hearlier, hsplit,
      hmark.behind.covering_eq_nil hcell']
  -- The cells of the word are covered by records behind the mark only, which move with it.
  · refine List.map_congr_left fun cell hcell => ?_
    obtain ⟨hline, hstart, -⟩ := bounds_of_mem_textCells hcell
    have hafter : ¬cell.Before line col := by
      rw [Cell.Before]
      omega
    have hafter' : ¬(cell.move line' shift).Before line col := by
      simp only [Cell.Before, Cell.move]
      omega
    rw [Function.comp_apply, covering_append, hmark.before.covering_eq_nil hafter', List.nil_append,
      covering_relocated hmove hmark.behind hline, hsplit, hmark.before.covering_eq_nil hafter,
      List.nil_append, List.map_map]
    exact List.map_congr_left fun r _ => hvalue r

/-- The records end with the line to which a word moved. -/
theorem EndBefore.move {mark : Nat} {relocated : ρ → ρ} {line' shift stop : Int}
    (h : EndBefore records line stop) (hmove : Relocates relocated line' shift)
    (hlater : line < line') (hmark : MarkedAt records mark line col) :
    EndBefore (records.take mark ++ (records.drop mark).map relocated) line' (stop + shift) := by
  refine (hmark.before.mono (Or.inl hlater)).append fun r hr => ?_
  obtain ⟨r, hr', rfl⟩ := List.mem_map.1 hr
  obtain ⟨hline, -, hend⟩ := hmove r
  have hrline := (hmark.behind r hr').1
  have hrend := h r (List.mem_of_mem_drop hr')
  exact Or.inr ⟨hline, by omega⟩

/-- Whether the records are not empty, and a character shows at each of their columns. -/
def Solid (records : List ρ) (cells : List Cell) : Prop :=
  ∀ r ∈ records, Positioned.startCol r < Positioned.endCol r ∧
    ∀ col, Positioned.startCol r ≤ col → col < Positioned.endCol r →
      ∃ cell ∈ cells, cell.line = Positioned.line r ∧ cell.col = col

/-- A word that is placed shows a character at each column of its records. -/
theorem Solid.place {word : Text} (h : Solid records cells) (hne : word ≠ [])
    (hword : ∀ c ∈ word, Text.isSpace c = false)
    (hemitted : ∀ r ∈ emitted, Positioned.line r = line ∧ Positioned.startCol r = col ∧
      Positioned.endCol r = col + word.length) :
    Solid (records ++ emitted) (cells ++ textCells line col word) := by
  intro r hr
  rcases List.mem_append.1 hr with hr | hr
  · refine ⟨(h r hr).1, fun k hfrom hto => ?_⟩
    obtain ⟨cell, hcell, hplace⟩ := (h r hr).2 k hfrom hto
    exact ⟨cell, List.mem_append_left _ hcell, hplace⟩
  · obtain ⟨hline, hstart, hend⟩ := hemitted r hr
    have hpos : 0 < word.length := List.length_pos_iff.2 hne
    refine ⟨by omega, fun k hfrom hto => ?_⟩
    obtain ⟨cell, hcell, hplace⟩ := exists_mem_textCells hword (hstart ▸ hfrom) (hend ▸ hto)
    exact ⟨cell, List.mem_append_right _ hcell, hline ▸ hplace⟩

/-- A word that moves takes the characters of its records along. -/
theorem Solid.move {word : Text} {mark : Nat} {relocated : ρ → ρ} {line' shift : Int}
    (h : Solid records (cells ++ textCells line col word)) (hmove : Relocates relocated line' shift)
    (hcells : ∀ cell ∈ cells, cell.Before line col) (hmark : MarkedAt records mark line col) :
    Solid (records.take mark ++ (records.drop mark).map relocated)
      (cells ++ textCells line' (col + shift) word) := by
  intro r hr
  rcases List.mem_append.1 hr with hr | hr
  · obtain ⟨hsize, hcolumns⟩ := h r (List.mem_of_mem_take hr)
    refine ⟨hsize, fun k hk hk' => ?_⟩
    obtain ⟨cell, hcell, hplace⟩ := hcolumns k hk hk'
    rcases List.mem_append.1 hcell with hcell | hcell
    · exact ⟨cell, List.mem_append_left _ hcell, hplace⟩
    · -- The record ends before the word, so the cell is none of the word.
      have := bounds_of_mem_textCells hcell
      have := hmark.before r hr
      omega
  · obtain ⟨r, hr', rfl⟩ := List.mem_map.1 hr
    obtain ⟨hline, hstart, hend⟩ := hmove r
    obtain ⟨hsize, hcolumns⟩ := h r (List.mem_of_mem_drop hr')
    refine ⟨by omega, fun k hk hk' => ?_⟩
    obtain ⟨cell, hcell, hcline, hccol⟩ := hcolumns (k - shift) (by omega) (by omega)
    rcases List.mem_append.1 hcell with hcell | hcell
    · -- The record starts with the word, so the cell is not before it.
      have hcell' := hcells cell hcell
      rw [Cell.Before] at hcell'
      have := hmark.behind r hr'
      omega
    · refine ⟨cell.move line' shift, ?_, hline.symm, ?_⟩
      · rw [textCells_move line]
        exact List.mem_append_right _ (List.mem_map_of_mem hcell)
      · simp only [Cell.move]
        omega

end Records

end ChapterLayout
