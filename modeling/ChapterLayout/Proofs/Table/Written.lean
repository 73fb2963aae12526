import Mathlib.Data.List.Basic
import ChapterLayout.Flow.Tag
import ChapterLayout.Proofs.Text.Words

/-! # Tables as they are written

A table is written as rows of cells, in sections or bare, and the end tags of cells and rows may be
missing. The draft of a table takes its tags and texts one after the other:

* **`TableDraft.take`**, **`TableDraft.takeAll`** — what tokens do to the table that is collected;
* **`WrittenCell`**, **`WrittenRow`**, **`WrittenSection`** — the parts of a table as tokens;
* **`TableDraft.takeAll_cell`**, **`TableDraft.takeAll_row`** — a cell gets into its row, and a row
  into the table, by its end tag only; without it, the text of a cell is pending until the next tag;
* **`Flow.finishDraft_rows`** — the end of the table recovers the row that is still open, with the
  pending text as its last cell;
* **`Flow.finishDraft_sections`** — rows outside the header sections follow each other, but a row in
  a header section replaces the header. -/

namespace ChapterLayout

/-! ## (1) Tokens in a table -/

namespace Token

/-- The part of a table that a tag opens or closes. -/
def part? : Token → Option TableDraft.Part
  | .opening name _ => TableDraft.Part.ofTag? name
  | .closing name => TableDraft.Part.ofTag? name
  | _ => none

/-- Whether the tag of an element of the given name may stand in a table: it belongs to no other
table, not to the head of a document and to no raw element. -/
def IsTableName (name : Text) : Prop :=
  TagRole.ofName name ≠ .table ∧ TagRole.ofName name ≠ .head ∧ TagRole.ofName name ≠ .raw

instance (name : Text) : Decidable (IsTableName name) := inferInstanceAs (Decidable (_ ∧ _))

/-- Whether a token may stand in a table. -/
def InTable : Token → Prop
  | .opening name _ => IsTableName name
  | .closing name => IsTableName name
  | _ => True

instance (token : Token) : Decidable token.InTable :=
  match token with
  | .opening name _ => inferInstanceAs (Decidable (IsTableName name))
  | .closing name => inferInstanceAs (Decidable (IsTableName name))
  | .empty _ _ => inferInstanceAs (Decidable True)
  | .text _ => inferInstanceAs (Decidable True)

/-- What a token adds to the text of the cell it stands in: a line break is a blank. -/
def cellText : Token → Text
  | .text s => s
  | .empty name _ => if name == "br".toList then [' '] else []
  | _ => []

/-- The text of the tokens in a cell. -/
def cellTexts (tokens : List Token) : Text := tokens.flatMap cellText

end Token

namespace TableDraft

/-- The table after one more token. Text outside the rows is dropped. -/
def take (table : TableDraft) : Token → TableDraft
  | .opening name _ => table.update name false
  | .closing name => table.update name true
  | token => if table.inRow then table.addText token.cellText else table

/-- The table after tokens. -/
def takeAll (table : TableDraft) (tokens : List Token) : TableDraft := tokens.foldl take table

variable {table : TableDraft}

/-- No tokens leave the table as it is. -/
@[simp] theorem takeAll_nil (table : TableDraft) : table.takeAll [] = table := rfl

/-- Tokens are taken one after the other. -/
@[simp] theorem takeAll_cons (table : TableDraft) (token : Token) (tokens : List Token) :
    table.takeAll (token :: tokens) = (table.take token).takeAll tokens := rfl

/-- Tokens one behind the other are taken one after the other. -/
@[simp] theorem takeAll_append (table : TableDraft) (tokens tokens' : List Token) :
    table.takeAll (tokens ++ tokens') = (table.takeAll tokens).takeAll tokens' :=
  List.foldl_append

end TableDraft

/-- Tokens that may stand in a table and are no tags of its rows and cells. -/
structure LooseTokens where
  tokens : List Token
  loose : ∀ token ∈ tokens, token.InTable ∧ token.part? = none := by decide

namespace LooseTokens

/-- The text of the tokens. -/
def text (loose : LooseTokens) : Text := Token.cellTexts loose.tokens

/-- The end tag of an element with what follows it, if it is written. -/
def ending (name : Text) : Option LooseTokens → List Token
  | none => []
  | some gap => .closing name :: gap.tokens

/-- Loose tokens may stand in a table. -/
theorem inTable (loose : LooseTokens) : ∀ token ∈ loose.tokens, token.InTable :=
  fun token hmem => (loose.loose token hmem).1

/-- The end tag of an element, and what follows it, may stand in a table. -/
theorem inTable_ending {name : Text} (hname : Token.IsTableName name)
    (ended : Option LooseTokens) : ∀ token ∈ ending name ended, token.InTable := by
  intro token hmem
  cases ended with
  | none => simp [ending] at hmem
  | some gap =>
    rw [ending, List.mem_cons] at hmem
    rcases hmem with rfl | hgap
    · exact hname
    · exact gap.inTable token hgap

/-- The tokens of parts behind loose ones may stand in a table if those of each part may. -/
theorem inTable_append {α : Type} (lead : LooseTokens) {parts : List α} {tokens : α → List Token}
    (h : ∀ part, ∀ token ∈ tokens part, token.InTable) :
    ∀ token ∈ lead.tokens ++ parts.flatMap tokens, token.InTable := by
  intro token hmem
  rw [List.mem_append, List.mem_flatMap] at hmem
  rcases hmem with hlead | ⟨part, -, hpart⟩
  · exact lead.inTable token hlead
  · exact h part token hpart

end LooseTokens

namespace TableDraft

variable {table : TableDraft} {token : Token}

/-- A token that is no tag of a row or cell adds its text, if a row is open. -/
theorem take_loose (h : token.part? = none) :
    table.take token = if table.inRow then table.addText token.cellText else table := by
  have hupdate : ∀ name closing, Part.ofTag? name = none → table.update name closing = table := by
    intro name closing hname
    simp [update, hname]
  have hnothing : table.addText [] = table := by simp [addText]
  cases token with
  | text s => rfl
  | empty name attributes => rfl
  | opening name attributes =>
    have hnone : (Token.opening name attributes).cellText = [] := rfl
    rw [take, hupdate name false h, hnone, hnothing, ite_self]
  | closing name =>
    have hnone : (Token.closing name).cellText = [] := rfl
    rw [take, hupdate name true h, hnone, hnothing, ite_self]

/-- In a row, tokens between its tags go to the current cell. -/
theorem takeAll_loose (hrow : table.inRow = true) (loose : LooseTokens) :
    table.takeAll loose.tokens = table.addText loose.text := by
  obtain ⟨tokens, hloose⟩ := loose
  show table.takeAll tokens = table.addText (Token.cellTexts tokens)
  induction tokens generalizing table with
  | nil => simp [Token.cellTexts, addText]
  | cons token tokens ih =>
    have hrow' : (table.addText token.cellText).inRow = true := hrow
    have hnext := ih hrow' fun next hmem => hloose next (List.mem_cons_of_mem _ hmem)
    rw [takeAll_cons, take_loose (hloose token List.mem_cons_self).2, if_pos hrow, hnext]
    simp [addText, Token.cellTexts]

/-- Outside the rows, tokens between the tags leave no trace. -/
theorem takeAll_loose_outside (hrow : table.inRow = false) (loose : LooseTokens) :
    table.takeAll loose.tokens = table := by
  obtain ⟨tokens, hloose⟩ := loose
  show table.takeAll tokens = table
  induction tokens with
  | nil => rfl
  | cons token tokens ih =>
    rw [takeAll_cons, take_loose (hloose token List.mem_cons_self).2, if_neg (by simp [hrow])]
    exact ih fun next hmem => hloose next (List.mem_cons_of_mem _ hmem)

end TableDraft

/-! ## (2) Cells -/

/-- A cell, as it is written. -/
structure WrittenCell where
  /-- Whether it is a cell of a header. -/
  header : Bool := false
  attributes : List Attribute := []
  content : LooseTokens
  /-- What follows its end tag, if that is written. -/
  ended : Option LooseTokens := some ⟨[], by decide⟩

namespace WrittenCell

/-- The name of the cell's tags. -/
def name (cell : WrittenCell) : Text := if cell.header then "th".toList else "td".toList

/-- The tokens of the cell. -/
def tokens (cell : WrittenCell) : List Token :=
  .opening cell.name cell.attributes ::
    (cell.content.tokens ++ LooseTokens.ending cell.name cell.ended)

/-- The text of the cell. -/
def text (cell : WrittenCell) : Text := Text.squeeze cell.content.text

/-- What the cell adds to its row: its text, if its end tag is written. -/
def kept (cell : WrittenCell) : Row := if cell.ended.isSome then [cell.text] else []

/-- The text behind the last tag of the cell, which belongs to no cell of the row yet. -/
def pending (cell : WrittenCell) : Text := (cell.ended.getD cell.content).text

/-- The tokens of a cell may stand in a table. -/
theorem inTable (cell : WrittenCell) : ∀ token ∈ cell.tokens, token.InTable := by
  have hname : Token.IsTableName cell.name := by
    unfold name
    split <;> decide
  intro token hmem
  rw [tokens, List.mem_cons, List.mem_append] at hmem
  rcases hmem with rfl | hcontent | hend
  · exact hname
  · exact cell.content.inTable token hcontent
  · exact LooseTokens.inTable_ending hname cell.ended token hend

end WrittenCell

namespace TableDraft

variable {table : TableDraft}

/-- In a table, the tag of a part changes that part. -/
theorem update_part {part : Part} (hin : table.inTable = true) {name : Text}
    (hname : Part.ofTag? name = some part) (closing : Bool) :
    table.update name closing = table.updatePart closing part := by
  rw [update, if_pos hin, hname]

/-- The tags of a part of the table open and close that part. -/
theorem take_part {part : Part} (hin : table.inTable = true) {name : Text}
    (hname : Part.ofTag? name = some part) (attributes : List Attribute) :
    table.take (.opening name attributes) = table.updatePart false part ∧
      table.take (.closing name) = table.updatePart true part :=
  ⟨update_part hin hname false, update_part hin hname true⟩

/-- The tags of a cell are those of a cell of the table. -/
theorem ofTag?_name (cell : WrittenCell) : Part.ofTag? cell.name = some .cell := by
  unfold WrittenCell.name
  split <;> rfl

/-- **A cell** joins its row by its end tag. -/
theorem takeAll_cell (hin : table.inTable = true) (hrow : table.inRow = true)
    (cell : WrittenCell) :
    table.takeAll cell.tokens = { table with
      currentRow := table.currentRow ++ cell.kept
      currentCell := cell.pending } := by
  have hname := ofTag?_name cell
  have hrow' : (table.updatePart false .cell).inRow = true := hrow
  have hin' : ((table.updatePart false .cell).addText cell.content.text).inTable = true := hin
  have hrow'' : (((table.updatePart false .cell).addText cell.content.text).updatePart true
      .cell).inRow = true := hrow
  -- The start tag drops what is pending, so behind it only the cell's own text is.
  rw [WrittenCell.tokens, takeAll_cons, (take_part hin hname _).1, takeAll_append,
    takeAll_loose hrow', WrittenCell.kept, WrittenCell.pending]
  cases cell.ended with
  | none => simp [LooseTokens.ending, addText, updatePart]
  | some gap =>
    rw [LooseTokens.ending, takeAll_cons, (take_part hin' hname cell.attributes).2,
      takeAll_loose hrow'']
    simp [addText, updatePart, finishCell, hrow, WrittenCell.text]

/-- Cells, one after the other. -/
theorem takeAll_cells (hin : table.inTable = true) (hrow : table.inRow = true)
    (cells : List WrittenCell) :
    table.takeAll (cells.flatMap (·.tokens)) = { table with
      currentRow := table.currentRow ++ cells.flatMap (·.kept)
      currentCell := cells.foldl (fun _ cell => cell.pending) table.currentCell } := by
  induction cells generalizing table with
  | nil => simp
  | cons cell cells ih =>
    have hnext := @ih { table with
      currentRow := table.currentRow ++ cell.kept
      currentCell := cell.pending } hin hrow
    rw [List.flatMap_cons, takeAll_append, takeAll_cell hin hrow, hnext]
    simp

end TableDraft

/-! ## (3) Rows -/

/-- A row, as it is written. -/
structure WrittenRow where
  attributes : List Attribute := []
  /-- What stands before its first cell. -/
  lead : LooseTokens := ⟨[], by decide⟩
  cells : List WrittenCell
  /-- What follows its end tag, if that is written. -/
  ended : Option LooseTokens := some ⟨[], by decide⟩

namespace WrittenRow

/-- The tokens of the row. -/
def tokens (row : WrittenRow) : List Token :=
  .opening "tr".toList row.attributes :: (row.lead.tokens ++ row.cells.flatMap (·.tokens) ++
    LooseTokens.ending "tr".toList row.ended)

/-- The cells of the row whose end tags are written. -/
def kept (row : WrittenRow) : Row := row.cells.flatMap (·.kept)

/-- The text behind the last tag of a cell, if `before` is the text behind the last one before the
row. -/
def pending (before : Text) (row : WrittenRow) : Text :=
  row.cells.foldl (fun _ cell => cell.pending) (before ++ row.lead.text)

/-- Whether all end tags of the row are written. -/
def IsClosed (row : WrittenRow) : Prop :=
  row.ended.isSome = true ∧ ∀ cell ∈ row.cells, cell.ended.isSome = true

instance (row : WrittenRow) : Decidable row.IsClosed := inferInstanceAs (Decidable (_ ∧ _))

/-- The texts of all cells of the row. -/
def texts (row : WrittenRow) : Row := row.cells.map (·.text)

/-- The texts of rows, without rows that have no cells. -/
def allTexts (rows : List WrittenRow) : List Row := (rows.map texts).filter (!·.isEmpty)

/-- The tokens of a row may stand in a table. -/
theorem inTable (row : WrittenRow) : ∀ token ∈ row.tokens, token.InTable := by
  have hname : Token.IsTableName "tr".toList := by decide
  intro token hmem
  rw [tokens, List.mem_cons, List.mem_append] at hmem
  rcases hmem with rfl | hcells | hend
  · exact hname
  · exact row.lead.inTable_append WrittenCell.inTable token hcells
  · exact LooseTokens.inTable_ending hname row.ended token hend

/-- With all end tags no cell is lost. -/
theorem IsClosed.kept_eq {row : WrittenRow} (h : row.IsClosed) : row.kept = row.texts := by
  unfold kept texts
  rw [List.map_eq_flatMap]
  exact List.flatMap_congr fun cell hcell => if_pos (h.2 cell hcell)

end WrittenRow

namespace TableDraft

variable {table : TableDraft}

/-- The table in which a row is open behind its cells. -/
def beginRow (table : TableDraft) (row : WrittenRow) : TableDraft :=
  { table with
    inRow := true
    currentRow := row.kept
    currentCell := row.pending table.currentCell }

/-- **A row** joins the table by its end tag. -/
theorem takeAll_row (hin : table.inTable = true) (row : WrittenRow) :
    table.takeAll row.tokens =
      if row.ended.isSome then (table.beginRow row).finishRow else table.beginRow row := by
  have hname : Part.ofTag? "tr".toList = some .row := by decide
  have hrow : (table.updatePart false .row).inRow = true := rfl
  have hcells : (table.updatePart false .row).takeAll
      (row.lead.tokens ++ row.cells.flatMap (·.tokens)) = table.beginRow row := by
    have hin' : ((table.updatePart false .row).addText row.lead.text).inTable = true := hin
    rw [takeAll_append, takeAll_loose hrow, takeAll_cells hin' rfl]
    simp [beginRow, addText, updatePart, WrittenRow.kept, WrittenRow.pending]
  have hin' : (table.beginRow row).inTable = true := hin
  rw [WrittenRow.tokens, takeAll_cons, (take_part hin hname _).1, takeAll_append, hcells]
  cases row.ended with
  | none => rfl
  | some gap =>
    rw [LooseTokens.ending, takeAll_cons, (take_part hin' hname []).2]
    exact takeAll_loose_outside rfl gap

/-- The rows with cells that are finished. -/
def finishedRows (rows : List WrittenRow) : List Row :=
  ((rows.filter (·.ended.isSome)).map (·.kept)).filter (!·.isEmpty)

/-- Rows outside the header section, one after the other. -/
theorem takeAll_rows (hin : table.inTable = true) (hhead : table.inHead = false)
    (rows : List WrittenRow) : ∃ inRow currentRow,
    table.takeAll (rows.flatMap (·.tokens)) = { table with
      rows := table.rows ++ finishedRows rows
      currentCell := rows.foldl WrittenRow.pending table.currentCell
      inRow
      currentRow } := by
  induction rows generalizing table with
  | nil => exact ⟨table.inRow, table.currentRow, by simp [finishedRows]⟩
  | cons row rows ih =>
    rw [List.flatMap_cons, takeAll_append, takeAll_row hin]
    cases hended : row.ended.isSome with
    | false =>
      -- The row stays open, and the start tag of the next one drops it.
      obtain ⟨inRow, currentRow, heq⟩ := @ih (table.beginRow row) hin hhead
      refine ⟨inRow, currentRow, ?_⟩
      rw [if_neg (by simp), heq]
      simp [finishedRows, hended, beginRow]
    | true =>
      obtain ⟨inRow, currentRow, heq⟩ := @ih (table.beginRow row).finishRow hin hhead
      refine ⟨inRow, currentRow, ?_⟩
      rw [if_pos rfl, heq]
      by_cases hcells : row.kept = [] <;>
        simp [finishedRows, hended, beginRow, finishRow, hhead, hcells]

/-- The text behind the last tag of a cell as a cell of its own, unless it is blank. -/
def pendingCell (s : Text) : Row := if Text.isAllBlank s then [] else [Text.squeeze s]

/-- The row that is open behind rows: its finished cells, and the pending text. -/
def openRow (rows : List WrittenRow) : Row :=
  match rows.getLast? with
  | some row =>
    if row.ended.isSome then [] else row.kept ++ pendingCell (rows.foldl WrittenRow.pending [])
  | none => []

/-- The rows that the end of the table finds behind rows outside its header section. -/
def shownRows (rows : List WrittenRow) : List Row :=
  finishedRows rows ++ [openRow rows].filter (!·.isEmpty)

/-- A text that is not blank is pending as a cell. -/
theorem pendingCell_of_ne_nil {s : Text} (h : Text.squeeze s ≠ []) :
    pendingCell s = [Text.squeeze s] := by
  refine if_neg fun hblank => h ?_
  have hwords : Text.words Text.isBlank s = [] :=
    Text.words_eq_nil_iff.2 fun c hc => List.all_eq_true.1 hblank c hc
  rw [Text.squeeze, hwords]
  rfl

/-- The row keeps the text of every cell that is ended. -/
theorem mem_kept {row : WrittenRow} {cell : WrittenCell} (hcell : cell ∈ row.cells)
    (hended : cell.ended.isSome = true) : cell.text ∈ row.kept := by
  refine List.mem_flatMap.2 ⟨cell, hcell, ?_⟩
  rw [WrittenCell.kept, if_pos hended]
  exact List.mem_cons_self

/-- A row with a cell is shown if its end tag is written. -/
theorem mem_shownRows_of_ended {rows : List WrittenRow} {row : WrittenRow} (hrow : row ∈ rows)
    (hended : row.ended.isSome = true) {s : Text} (hs : s ∈ row.kept) :
    row.kept ∈ shownRows rows := by
  have hkept : row.kept ∈ (rows.filter (·.ended.isSome)).map (·.kept) :=
    List.mem_map_of_mem (List.mem_filter.2 ⟨hrow, hended⟩)
  exact List.mem_append_left _ (List.mem_filter.2 ⟨hkept, by simp [List.ne_nil_of_mem hs]⟩)

/-- The row that is open at the end is shown if it has a cell. -/
theorem openRow_mem_shownRows {rows : List WrittenRow} {s : Text} (hs : s ∈ openRow rows) :
    openRow rows ∈ shownRows rows :=
  List.mem_append_right _
    (List.mem_filter.2 ⟨List.mem_singleton_self _, by simp [List.ne_nil_of_mem hs]⟩)

/-- The row that is open behind rows is the last one, if it is not ended. -/
theorem openRow_append (above : List WrittenRow) {row : WrittenRow} (h : row.ended = none) :
    openRow (above ++ [row]) =
      row.kept ++ pendingCell (row.pending (above.foldl WrittenRow.pending [])) := by
  simp [openRow, h]

/-- **Cells with their end tags** are shown, if their row has its end tag or is the last one. -/
theorem exists_shown_of_ended {rows above below : List WrittenRow} {row : WrittenRow}
    {cell : WrittenCell} (hrows : rows = above ++ row :: below)
    (hrow : row.ended.isSome = true ∨ below = []) (hcell : cell ∈ row.cells)
    (hended : cell.ended.isSome = true) : ∃ shown ∈ shownRows rows, cell.text ∈ shown := by
  have hkept := mem_kept hcell hended
  cases hend : row.ended with
  | some gap =>
    have hmem : row ∈ rows := hrows ▸ List.mem_append_right _ List.mem_cons_self
    exact ⟨_, mem_shownRows_of_ended hmem (by rw [hend]; rfl) hkept, hkept⟩
  | none =>
    obtain rfl : below = [] := hrow.resolve_left (by simp [hend])
    have hopen : cell.text ∈ openRow rows := by
      rw [hrows, openRow_append above hend]
      exact List.mem_append_left _ hkept
    exact ⟨_, openRow_mem_shownRows hopen, hopen⟩

/-- **The cell that is open at the end** is shown. -/
theorem exists_shown_of_open {rows above : List WrittenRow} {row : WrittenRow}
    {before : List WrittenCell} {cell : WrittenCell} (hrows : rows = above ++ [row])
    (hrow : row.ended = none) (hcells : row.cells = before ++ [cell]) (hcell : cell.ended = none)
    (hne : cell.text ≠ []) : ∃ shown ∈ shownRows rows, cell.text ∈ shown := by
  have hpending : ∀ s, row.pending s = cell.content.text := by
    intro s
    simp [WrittenRow.pending, hcells, WrittenCell.pending, hcell]
  have hopen : cell.text ∈ openRow rows := by
    rw [hrows, openRow_append above hrow, hpending, pendingCell_of_ne_nil hne]
    exact List.mem_append_right _ (List.mem_singleton_self _)
  exact ⟨_, openRow_mem_shownRows hopen, hopen⟩

end TableDraft

namespace Flow

open TableDraft

variable {table : TableDraft}

/-- A table without an open row is finished as it is. -/
theorem finishDraft_closed (h : table.inRow = false) : finishDraft table = table := by
  simp [finishDraft, h]

/-- The end of a table finishes the row that is open, with the pending text as its last cell. -/
theorem finishDraft_open (hin : table.inTable = true) (hrow : table.inRow = true) :
    ∃ currentCell, finishDraft table = finishRow { table with
      currentRow := table.currentRow ++ pendingCell table.currentCell
      currentCell } := by
  have hcell : Part.ofTag? "td".toList = some .cell := by decide
  have htr : Part.ofTag? "tr".toList = some .row := by decide
  unfold finishDraft pendingCell
  rw [if_pos hrow]
  by_cases hblank : Text.isAllBlank table.currentCell = true
  · refine ⟨table.currentCell, ?_⟩
    rw [if_pos hblank, if_pos hblank, update_part hin htr, List.append_nil]
    rfl
  · refine ⟨[], ?_⟩
    have hin' : (table.updatePart true .cell).inTable = true := hin
    rw [if_neg hblank, if_neg hblank, update_part hin hcell, update_part hin' htr]
    simp [updatePart, finishCell, hrow]

/-- A row of the body is put behind the others when it ends, unless it is empty. -/
theorem finishRow_body (hrow : table.inRow = true) (hhead : table.inHead = false) :
    table.finishRow.headers = table.headers ∧
      table.finishRow.rows = table.rows ++ [table.currentRow].filter (!·.isEmpty) := by
  by_cases hcells : table.currentRow = [] <;> simp [finishRow, hrow, hhead, hcells]

/-- **The rows of a table** without a header section are those whose end tags are written, each with
the cells whose end tags are written, and the one that is open at the end. -/
theorem finishDraft_rows (lead : LooseTokens) (rows : List WrittenRow) :
    let table := takeAll { inTable := true } (lead.tokens ++ rows.flatMap (·.tokens))
    (finishDraft table).headers = [] ∧
      (finishDraft table).rows = shownRows rows := by
  dsimp only
  rw [shownRows, takeAll_append, takeAll_loose_outside rfl]
  -- What is open at the end of the table is open in its last row.
  rcases List.eq_nil_or_concat rows with rfl | ⟨init, row, rfl⟩
  · exact ⟨rfl, rfl⟩
  · have hinit : ∃ before : TableDraft,
        takeAll { inTable := true } (init.flatMap (·.tokens)) = before ∧
          before.inTable = true ∧ before.inHead = false ∧ before.headers = [] ∧
          before.rows = finishedRows init ∧
          before.currentCell = init.foldl WrittenRow.pending [] := by
      have hfresh : ({ inTable := true } : TableDraft).inHead = false := rfl
      obtain ⟨inRow, currentRow, heq⟩ := takeAll_rows rfl hfresh init
      exact ⟨_, heq, rfl, rfl, rfl, rfl, rfl⟩
    obtain ⟨before, heq, hin, hhead, hheaders, hrows, hcell⟩ := hinit
    have hfinished : finishedRows (init ++ [row]) =
        finishedRows init ++ finishedRows [row] := by simp [finishedRows]
    rw [List.concat_eq_append, List.flatMap_append, takeAll_append, heq, List.flatMap_singleton,
      takeAll_row hin, hfinished]
    cases hended : row.ended.isSome with
    | true =>
      have hrow : (before.beginRow row).inRow = true := rfl
      obtain ⟨hheaders', hrows'⟩ := finishRow_body hrow hhead
      rw [if_pos rfl, finishDraft_closed rfl, hheaders', hrows']
      refine ⟨hheaders, ?_⟩
      simp [beginRow, hrows, openRow, finishedRows, hended]
    | false =>
      have hrow : (before.beginRow row).inRow = true := rfl
      have hin' : (before.beginRow row).inTable = true := hin
      obtain ⟨cell, hfinish⟩ := finishDraft_open hin' hrow
      have hrow' : ({ before.beginRow row with
          currentRow := row.kept ++ pendingCell (row.pending before.currentCell)
          currentCell := cell } : TableDraft).inRow = true := rfl
      obtain ⟨hheaders', hrows'⟩ := finishRow_body hrow' hhead
      rw [if_neg Bool.false_ne_true, hfinish]
      refine ⟨hheaders'.trans hheaders, hrows'.trans ?_⟩
      simp [beginRow, hrows, openRow, finishedRows, hended, hcell]

end Flow

/-! ## (4) Sections -/

/-- The sections of a table that have tags. -/
inductive SectionTag where
  | head
  | body
  | foot
  deriving DecidableEq, Repr

/-- The name of a section's tags. -/
def SectionTag.name : SectionTag → Text
  | head => "thead".toList
  | body => "tbody".toList
  | foot => "tfoot".toList

/-- A section, as it is written, or rows that stand in none. -/
structure WrittenSection where
  tag : Option SectionTag := none
  attributes : List Attribute := []
  /-- What stands before its first row. -/
  lead : LooseTokens := ⟨[], by decide⟩
  rows : List WrittenRow
  /-- What follows its end tag. -/
  gap : LooseTokens := ⟨[], by decide⟩

namespace WrittenSection

/-- The tokens of the section. -/
def tokens (part : WrittenSection) : List Token :=
  match part.tag with
  | none => part.lead.tokens ++ part.rows.flatMap (·.tokens) ++ part.gap.tokens
  | some tag =>
    .opening tag.name part.attributes :: (part.lead.tokens ++ part.rows.flatMap (·.tokens) ++
      .closing tag.name :: part.gap.tokens)

/-- Whether the rows of the section are headers. -/
def isHead (part : WrittenSection) : Bool := part.tag == some .head

/-- Whether all end tags of the rows are written. -/
def IsClosed (part : WrittenSection) : Prop := ∀ row ∈ part.rows, row.IsClosed

instance (part : WrittenSection) : Decidable part.IsClosed :=
  inferInstanceAs (Decidable (∀ row ∈ part.rows, row.IsClosed))

/-- The texts of the rows with cells. -/
def texts (part : WrittenSection) : List Row := WrittenRow.allTexts part.rows

/-- The tokens of a section may stand in a table. -/
theorem inTable (part : WrittenSection) : ∀ token ∈ part.tokens, token.InTable := by
  have hbody : ∀ token ∈ part.lead.tokens ++ part.rows.flatMap (·.tokens), token.InTable :=
    part.lead.inTable_append WrittenRow.inTable
  intro token hmem
  unfold tokens at hmem
  cases htag : part.tag with
  | none =>
    rw [htag, List.mem_append] at hmem
    exact hmem.elim (hbody token) (part.gap.inTable token)
  | some tag =>
    have hname : Token.IsTableName tag.name := by cases tag <;> decide
    rw [htag, List.mem_cons, List.mem_append, List.mem_cons] at hmem
    rcases hmem with rfl | hrows | rfl | hgap
    · exact hname
    · exact hbody token hrows
    · exact hname
    · exact part.gap.inTable token hgap

end WrittenSection

namespace TableDraft

variable {table : TableDraft}

/-- A finished row becomes the header if the header section is open, and is lost there when another
one follows. -/
theorem takeAll_closedRow (hin : table.inTable = true) {row : WrittenRow} (h : row.IsClosed) :
    ∃ currentCell, table.takeAll row.tokens = { table with
      headers := if table.inHead && !row.texts.isEmpty then row.texts else table.headers
      rows := if table.inHead then table.rows else table.rows ++ [row.texts].filter (!·.isEmpty)
      inRow := false
      currentRow := []
      currentCell } := by
  refine ⟨row.pending table.currentCell, ?_⟩
  rw [takeAll_row hin, if_pos h.1, finishRow, beginRow, h.kept_eq]
  cases table.inHead <;> by_cases hcells : row.texts = [] <;> simp [hcells]

/-- Finished rows, one after the other. -/
theorem takeAll_closedRows (hin : table.inTable = true) (hrow : table.inRow = false)
    {rows : List WrittenRow} (h : ∀ row ∈ rows, row.IsClosed) :
    ∃ currentRow currentCell, table.takeAll (rows.flatMap (·.tokens)) = { table with
      headers :=
        if table.inHead then (WrittenRow.allTexts rows).getLast?.getD table.headers
        else table.headers
      rows := if table.inHead then table.rows else table.rows ++ WrittenRow.allTexts rows
      currentRow
      currentCell } := by
  -- The induction leaves the draft general, since every row changes it.
  induction rows generalizing table with
  | nil => exact ⟨table.currentRow, table.currentCell, by simp [WrittenRow.allTexts]⟩
  | cons row rows ih =>
    obtain ⟨cell, hfirst⟩ := takeAll_closedRow hin (h row List.mem_cons_self)
    obtain ⟨currentRow, currentCell, hrest⟩ := @ih (table.takeAll row.tokens)
      (by rw [hfirst]; exact hin) (by rw [hfirst])
      fun next hnext => h next (List.mem_cons_of_mem _ hnext)
    refine ⟨currentRow, currentCell, ?_⟩
    rw [List.flatMap_cons, takeAll_append, hrest, hfirst]
    cases table.inHead <;> by_cases hcells : row.texts = [] <;>
      simp [WrittenRow.allTexts, hcells, hrow, List.getLast?_cons]

/-- Of all sections only the head is a part of the table. -/
theorem ofTag?_sectionName (tag : SectionTag) :
    Part.ofTag? tag.name = if tag = .head then some .head else none := by
  cases tag <;> decide

/-- The tags of a section open and close the header section, or do nothing. -/
theorem take_sectionTag (hin : table.inTable = true) (hrow : table.inRow = false)
    (hhead : table.inHead = false) (tag : SectionTag) (attributes : List Attribute) :
    table.take (.opening tag.name attributes) = { table with inHead := tag == .head } := by
  have hname := ofTag?_sectionName tag
  by_cases htag : tag = .head
  · rw [if_pos htag] at hname
    rw [(take_part hin hname attributes).1, htag]
    rfl
  · rw [if_neg htag] at hname
    have hloose : (Token.opening tag.name attributes).part? = none := hname
    rw [take_loose hloose, if_neg (by simp [hrow]), beq_false_of_ne htag, ← hhead]

/-- The end tag of a section leaves the head. -/
theorem take_sectionEnd (hin : table.inTable = true) (hrow : table.inRow = false)
    (tag : SectionTag) (hhead : table.inHead = (tag == .head)) :
    table.take (.closing tag.name) = { table with inHead := false } := by
  have hname := ofTag?_sectionName tag
  by_cases htag : tag = .head
  · rw [if_pos htag] at hname
    rw [(take_part hin hname []).2]
    rfl
  · rw [if_neg htag] at hname
    have hloose : (Token.closing tag.name).part? = none := hname
    rw [take_loose hloose, if_neg (by simp [hrow]), ← beq_false_of_ne htag, ← hhead]

/-- **A section** adds its rows, or changes the header. -/
theorem takeAll_section (hin : table.inTable = true) (hrow : table.inRow = false)
    (hhead : table.inHead = false) {part : WrittenSection} (h : part.IsClosed) :
    ∃ currentRow currentCell, table.takeAll part.tokens = { table with
      headers := if part.isHead then part.texts.getLast?.getD table.headers else table.headers
      rows := if part.isHead then table.rows else table.rows ++ part.texts
      currentRow
      currentCell } := by
  unfold WrittenSection.tokens WrittenSection.isHead WrittenSection.texts
  cases part.tag with
  | none =>
    obtain ⟨currentRow, currentCell, hrows⟩ := takeAll_closedRows hin hrow h
    have hafter : (table.takeAll (part.rows.flatMap (·.tokens))).inRow = false := by
      rw [hrows]
      exact hrow
    refine ⟨currentRow, currentCell, ?_⟩
    dsimp only
    rw [takeAll_append, takeAll_append, takeAll_loose_outside hrow, takeAll_loose_outside hafter,
      hrows]
    simp [hhead]
  | some tag =>
    -- Behind its rows the section is still open.
    obtain ⟨opened, hopened, hin', hrow', hhead'⟩ : ∃ opened : TableDraft,
        opened = { table with inHead := tag == .head } ∧ opened.inTable = true ∧
          opened.inRow = false ∧ opened.inHead = (tag == .head) := ⟨_, rfl, hin, hrow, rfl⟩
    obtain ⟨currentRow, currentCell, hrows⟩ := takeAll_closedRows hin' hrow' h
    obtain ⟨filled, hfilled, hin'', hrow'', hhead''⟩ : ∃ filled : TableDraft,
        filled = opened.takeAll (part.rows.flatMap (·.tokens)) ∧ filled.inTable = true ∧
          filled.inRow = false ∧ filled.inHead = (tag == .head) := by
      refine ⟨_, rfl, ?_⟩
      rw [hrows]
      exact ⟨hin', hrow', hhead'⟩
    have hgap : ({ filled with inHead := false } : TableDraft).inRow = false := hrow''
    refine ⟨currentRow, currentCell, ?_⟩
    dsimp only
    rw [takeAll_cons, take_sectionTag hin hrow hhead, ← hopened, takeAll_append, takeAll_append,
      takeAll_loose_outside hrow', ← hfilled, takeAll_cons,
      take_sectionEnd hin'' hrow'' tag hhead'', takeAll_loose_outside hgap, hfilled, hrows, hopened]
    simp [hhead]

/-- The rows of the header sections. -/
def headRows (parts : List WrittenSection) : List Row :=
  (parts.filter (·.isHead)).flatMap (·.texts)

/-- The rows of the other sections, and those that stand in no section. -/
def bodyRows (parts : List WrittenSection) : List Row :=
  (parts.filter (!·.isHead)).flatMap (·.texts)

/-- With one header row at most, the header and the rows of the table are all rows with cells. -/
theorem headRows_perm {parts : List WrittenSection} (h : (headRows parts).length ≤ 1) :
    ([(headRows parts).getLast?.getD []].filter (!·.isEmpty) ++ bodyRows parts).Perm
      (parts.flatMap (·.texts)) := by
  have hcells : ∀ row ∈ headRows parts, row.isEmpty = false := by
    intro row hrow
    obtain ⟨part, -, hmem⟩ := List.mem_flatMap.1 hrow
    simpa using (List.mem_filter.1 hmem).2
  -- No row of a section is empty, so only a missing header is left out.
  have hheader : [(headRows parts).getLast?.getD []].filter (!·.isEmpty) = headRows parts := by
    match headRows parts, h, hcells with
    | [], _, _ => rfl
    | [row], _, hcells => simpa using hcells row (List.mem_singleton_self row)
  rw [hheader, headRows, bodyRows, ← List.flatMap_append]
  exact (List.filter_append_perm _ parts).flatMap_right _

/-- Sections, one after the other. -/
theorem takeAll_sections (hin : table.inTable = true) (hrow : table.inRow = false)
    (hhead : table.inHead = false) {parts : List WrittenSection}
    (h : ∀ part ∈ parts, part.IsClosed) :
    ∃ currentRow currentCell, table.takeAll (parts.flatMap (·.tokens)) = { table with
      headers := (headRows parts).getLast?.getD table.headers
      rows := table.rows ++ bodyRows parts
      currentRow
      currentCell } := by
  induction parts generalizing table with
  | nil => exact ⟨table.currentRow, table.currentCell, by simp [headRows, bodyRows]⟩
  | cons part parts ih =>
    obtain ⟨row, cell, hfirst⟩ := takeAll_section hin hrow hhead (h part List.mem_cons_self)
    obtain ⟨currentRow, currentCell, hrest⟩ := @ih (table.takeAll part.tokens)
      (by rw [hfirst]; exact hin) (by rw [hfirst]; exact hrow) (by rw [hfirst]; exact hhead)
      fun next hnext => h next (List.mem_cons_of_mem _ hnext)
    refine ⟨currentRow, currentCell, ?_⟩
    rw [List.flatMap_cons, takeAll_append, hrest, hfirst]
    cases hpart : part.isHead <;> simp [headRows, bodyRows, hpart, Option.getD_or]

end TableDraft

namespace Flow

open TableDraft

/-- **The rows of a table** with all its end tags: those outside the header sections in their order,
and of those in header sections the last one as the header. -/
theorem finishDraft_sections (lead : LooseTokens) {parts : List WrittenSection}
    (h : ∀ part ∈ parts, part.IsClosed) :
    let table := takeAll { inTable := true } (lead.tokens ++ parts.flatMap (·.tokens))
    (finishDraft table).headers = (headRows parts).getLast?.getD [] ∧
      (finishDraft table).rows = bodyRows parts := by
  have hfresh : ({ inTable := true } : TableDraft).inRow = false := rfl
  obtain ⟨currentRow, currentCell, heq⟩ := takeAll_sections rfl hfresh rfl h
  dsimp only
  rw [takeAll_append, takeAll_loose_outside hfresh, heq]
  exact ⟨rfl, rfl⟩

end Flow

end ChapterLayout
