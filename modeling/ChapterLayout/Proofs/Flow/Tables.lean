import ChapterLayout.Proofs.Flow.LineKind
import ChapterLayout.Proofs.Flow.Verbatim
import ChapterLayout.Proofs.Table.Written

/-! # Tables on the page

While a table is open, its tags and texts go to the draft of the table, and whatever else stands in
its cells leaves the draft alone: `Flow.Collects` is kept by every token, and the draft takes the
tokens as `TableDraft.take` does. With what the draft makes of a written table this gives the tables
on the page:

* **`Collects.feedAll`** — the draft after tokens in a table;
* **`Flow.feedAll_table`** — a table with all its end tags shows every row with cells, but only the
  last one of its header sections;
* **`Flow.feedAll_table_omitted`** — a table without header sections, of which end tags are missing,
  shows the cells and rows whose end tags are written, and the one cell that is open at its end. -/

namespace ChapterLayout

/-- Only the parts of a table have tags that change it. -/
theorem TagRole.ofTag?_eq_none {name : Text} (h : TagRole.ofName name ≠ .tablePart) :
    TableDraft.Part.ofTag? name = none := by
  have hother : ∀ other : Text, TagRole.ofName other = .tablePart → (name == other) = false := by
    intro other hrole
    rw [beq_eq_false_iff_ne]
    rintro rfl
    exact h hrole
  have hhead : (name == "thead".toList) = false := hother _ (by decide)
  have hrow : (name == "tr".toList) = false := hother _ (by decide)
  have hheader : (name == "th".toList) = false := hother _ (by decide)
  have hcell : (name == "td".toList) = false := hother _ (by decide)
  simp only [TableDraft.Part.ofTag?, hhead, hrow, hheader, hcell, Bool.or_false,
    Bool.false_eq_true, if_false]

namespace Flow

variable {settings : Settings} {flow a b c : Flow} {token : Token} {name : Text}

/-! ## (1) Operations in a table -/

/-- Whether the tokens go to the draft of one table. -/
structure Collects (flow : Flow) : Prop where
  rawDepth : flow.context.rawDepth = 0
  inHead : flow.context.inHead = false
  inTable : flow.context.table.inTable = true
  nestedTables : flow.nestedTables = 0

/-- Whether a table may start: none is open, nor the head of the document or a raw element. -/
structure TakesTable (flow : Flow) : Prop where
  rawDepth : flow.context.rawDepth = 0
  inHead : flow.context.inHead = false
  inTable : flow.context.table.inTable = false
  nestedTables : flow.nestedTables = 0

/-- Whether an operation stays in the table: it goes to the draft, or leaves it alone. -/
def Operation.StaysInTable : Operation → Prop
  | .text _ | .lineBreak | .tablePart _ _ => True
  | operation => Part.draft ∉ operation.touched

/-- The draft of a table after an operation that stays in the table. -/
def Operation.draft (table : TableDraft) : Operation → TableDraft
  | .text s => if table.inRow then table.addText s else table
  | .lineBreak => if table.inRow then table.addText [' '] else table
  | .tablePart name closing => table.update name closing
  | _ => table

namespace Collects

/-- Steps that leave the draft alone stay in the table. -/
theorem keep (h : a.Collects) (hab : SameDraft a b) : b.Collects :=
  ⟨hab.rawDepth.trans h.rawDepth, hab.inHead.trans h.inHead, hab.table ▸ h.inTable,
    hab.nestedTables.trans h.nestedTables⟩

/-- Changes of the draft stay in the table. -/
theorem updateTable (h : flow.Collects) {f : TableDraft → TableDraft}
    (hf : (f flow.context.table).inTable = flow.context.table.inTable) :
    (flow.updateTable f).Collects :=
  ⟨h.rawDepth, h.inHead, hf.trans h.inTable, h.nestedTables⟩

/-- Text goes to the row that is open. -/
theorem feedText (h : flow.Collects) (s : Text) :
    (flow.feedText settings s).Collects ∧ (flow.feedText settings s).context.table =
      Operation.draft flow.context.table (.text s) := by
  obtain ⟨headingText, hcollect⟩ := exists_collectHeading flow s
  have htext : flow.feedText settings s =
      if flow.context.table.inRow then (flow.collectHeading s).updateTable (·.addText s)
      else flow.collectHeading s := by
    rw [feedText_eq]
    simp [h.rawDepth, h.inHead, h.inTable]
  have hcollected : (flow.collectHeading s).Collects := by
    rw [hcollect]
    exact ⟨h.rawDepth, h.inHead, h.inTable, h.nestedTables⟩
  have htable : (flow.collectHeading s).context.table = flow.context.table := by rw [hcollect]
  rw [htext, Operation.draft]
  split
  · exact ⟨hcollected.updateTable rfl, congrArg (·.addText s) htable⟩
  · exact ⟨hcollected, htable⟩

/-- A line break is a blank in the row that is open. -/
theorem breakLine (h : flow.Collects) :
    (flow.breakLine settings).Collects ∧ (flow.breakLine settings).context.table =
      Operation.draft flow.context.table .lineBreak := by
  rw [Operation.draft]
  unfold Flow.breakLine
  rw [h.inTable, Bool.true_and]
  split
  · exact ⟨h.updateTable rfl, rfl⟩
  · have hkeep : SameDraft flow
        (if flow.context.inPre then flow.addPre settings ['\n'] else flow.newLine) := by
      split
      · exact (leadsOnlyTo_addPre flow _).same_all .draft
      · exact (leadsOnlyTo_newLine flow).same_all .draft
    exact ⟨h.keep hkeep, hkeep.table⟩

/-- The tag of a part goes to the draft. -/
theorem changeTablePart (h : flow.Collects) (name : Text) (closing : Bool) :
    (flow.changeTablePart name closing).Collects ∧
      (flow.changeTablePart name closing).context.table =
        flow.context.table.update name closing := by
  have hchange : flow.changeTablePart name closing = flow.updateTable (·.update name closing) := by
    simp [Flow.changeTablePart, h.nestedTables]
  rw [hchange]
  exact ⟨h.updateTable (TableDraft.update_inTable _ name closing), rfl⟩

/-- **An operation that stays in the table** goes to the draft. -/
theorem perform (settings : Settings) (h : flow.Collects) {operation : Operation}
    (hstays : operation.StaysInTable) :
    (flow.perform settings operation).Collects ∧
      (flow.perform settings operation).context.table =
        operation.draft flow.context.table := by
  cases operation with
  | text s => exact h.feedText s
  | lineBreak => exact h.breakLine
  | tablePart name closing => exact h.changeTablePart name closing
  | _ =>
    have hkeep : SameDraft flow _ := perform_same .draft settings flow hstays
    exact ⟨h.keep hkeep, hkeep.table⟩

/-- **Operations that stay in the table** go to the draft, one after the other. -/
theorem performAll (settings : Settings) (h : flow.Collects) {operations : List Operation}
    (hstay : ∀ operation ∈ operations, operation.StaysInTable) :
    (flow.performAll settings operations).Collects ∧
      (flow.performAll settings operations).context.table =
        operations.foldl Operation.draft flow.context.table := by
  induction operations generalizing flow with
  | nil => exact ⟨h, rfl⟩
  | cons operation operations ih =>
    obtain ⟨hfirst, hrest⟩ := List.forall_mem_cons.1 hstay
    obtain ⟨hnext, htable⟩ := h.perform settings hfirst
    rw [performAll_cons, List.foldl_cons, ← htable]
    exact ih hnext hrest

end Collects

/-! ## (2) Tokens in a table -/

/-- The draft does not know the tags of other elements. -/
theorem update_of_ne_tablePart (table : TableDraft) (hpart : TagRole.ofName name ≠ .tablePart)
    (closing : Bool) : table.update name closing = table := by
  rw [TableDraft.update, TagRole.ofTag?_eq_none hpart, ite_self]

/-- The operations of a token in a table stay there. -/
theorem staysInTable (h : token.InTable) :
    ∀ operation ∈ token.operations, operation.StaysInTable := by
  cases token with
  | text s => exact List.forall_mem_singleton.2 trivial
  | opening name attributes =>
    obtain ⟨htable, hhead, hraw⟩ := h
    simp only [Token.operations]
    cases hrole : TagRole.ofName name <;>
      simp_all [TagRole.opening, Operation.StaysInTable, Operation.touched, TagRole.touched]
  | closing name =>
    obtain ⟨htable, hhead, hraw⟩ := h
    simp only [Token.operations]
    cases hrole : TagRole.ofName name <;>
      simp_all [TagRole.closing, Operation.StaysInTable, Operation.touched, TagRole.touched]
  | empty name attributes =>
    simp only [Token.operations, emptyOperations]
    split_ifs <;> simp [Operation.StaysInTable, Operation.touched]

/-- The operations of a token take it into the draft. -/
theorem foldl_draft (token : Token) (table : TableDraft) :
    token.operations.foldl Operation.draft table = table.take token := by
  cases token with
  | text s => rfl
  | opening name attributes =>
    simp only [Token.operations]
    cases hrole : TagRole.ofName name with
    | tablePart => rfl
    | _ => exact (update_of_ne_tablePart table (by simp [hrole]) false).symm
  | closing name =>
    simp only [Token.operations]
    cases hrole : TagRole.ofName name with
    | tablePart => rfl
    | _ => exact (update_of_ne_tablePart table (by simp [hrole]) true).symm
  | empty name attributes =>
    have hloose : (Token.empty name attributes).part? = none := rfl
    have hnothing : table.addText [] = table := by simp [TableDraft.addText]
    rw [TableDraft.take_loose hloose, Token.cellText]
    simp only [Token.operations, emptyOperations]
    split_ifs <;> simp_all [Operation.draft]

namespace Collects

/-- **A token in a table** goes to the draft. -/
theorem feed (settings : Settings) (h : flow.Collects) (htoken : token.InTable) :
    (flow.feed settings token).Collects ∧
      (flow.feed settings token).context.table = flow.context.table.take token := by
  have hshown : flow.hidesToken token = false := by
    cases token <;> simp [hidesToken, hides, h.inHead]
  rw [feed_eq_performAll, hshown, ← foldl_draft token]
  exact h.performAll settings (staysInTable htoken)

/-- **Tokens in a table** go to the draft, one after the other. -/
theorem feedAll (settings : Settings) (h : flow.Collects) {tokens : List Token}
    (htokens : ∀ token ∈ tokens, token.InTable) :
    (flow.feedAll settings tokens).Collects ∧
      (flow.feedAll settings tokens).context.table = flow.context.table.takeAll tokens := by
  induction tokens generalizing flow with
  | nil => exact ⟨h, rfl⟩
  | cons token tokens ih =>
    obtain ⟨hnext, htable⟩ := h.feed settings (htokens token List.mem_cons_self)
    obtain ⟨hall, hdraft⟩ := ih hnext fun t ht => htokens t (List.mem_cons_of_mem _ ht)
    exact ⟨hall, hdraft.trans (congrArg (TableDraft.takeAll · tokens) htable)⟩

end Collects

/-! ## (3) Whole tables -/

/-- The start of a table, with an empty draft. -/
theorem TakesTable.openTag (settings : Settings) (h : flow.TakesTable)
    (attributes : List Attribute) :
    (flow.openTag settings "table".toList attributes).Collects ∧
      (flow.openTag settings "table".toList attributes).context.table = { inTable := true } := by
  have hrole : TagRole.ofName "table".toList = .table := by decide
  set started : Flow := { flow.newLine with context := flow.newLine.context.startTable }
    with hstarted
  have hopen : flow.openTag settings "table".toList attributes =
      started.recordAnchor attributes := by
    simp only [Flow.openTag, hides, h.inHead, hrole, openTable, h.inTable, Bool.false_and,
      Bool.false_eq_true, if_false, hstarted]
  have hline : SameDraft flow flow.newLine := (leadsOnlyTo_newLine flow).same_all .draft
  have hcollects : started.Collects := ⟨hline.rawDepth.trans h.rawDepth,
    hline.inHead.trans h.inHead, rfl, hline.nestedTables.trans h.nestedTables⟩
  have hanchor : SameDraft started (started.recordAnchor attributes) :=
    same_recordAnchor started attributes (show Part.draft ≠ .anchors by decide)
  rw [hopen]
  exact ⟨hcollects.keep hanchor, hanchor.table⟩

/-- The end of a table puts the lines of its draft on the page. -/
theorem Collects.closeTable (h : flow.Collects) :
    ∃ blanks, (flow.feed settings (.closing "table".toList)).page.lines =
        flow.newLine.page.lines ++ flow.tableLines settings ++ blanks ∧
      ∀ line ∈ blanks, line = [] := by
  have hrole : TagRole.ofName "table".toList = .table := by decide
  have hshown : flow.hides (TagRole.ofName "table".toList) = false := by simp [hides, h.inHead]
  have hstacked : (TagRole.ofName "table".toList).isStacked = false := by decide
  have hclose : flow.feed settings (.closing "table".toList) = flow.flushTable settings := by
    show flow.closeTag settings "table".toList = _
    rcases closeTag_untracked settings hshown hstacked with ⟨hraw, -⟩ | ⟨-, heq⟩ | ⟨hpart, -⟩
    · exact absurd (hrole.symm.trans hraw) (by decide)
    · rw [heq, Flow.closeTable, if_neg (by simp [h.nestedTables]), if_pos h.inTable]
    · exact absurd (hrole.symm.trans hpart) (by decide)
  rw [hclose]
  exact (exists_flushTable_lines settings flow).2

/-- A table from its start tag to its end tag: its tokens go to an empty draft, and its end tag puts
the draft's rows on the page. -/
theorem TakesTable.feedAll (settings : Settings) (hplace : flow.TakesTable)
    (attributes : List Attribute) {tokens : List Token}
    (htokens : ∀ token ∈ tokens, token.InTable) :
    let filled := flow.feedAll settings (.opening "table".toList attributes :: tokens)
    filled.context.table = TableDraft.takeAll { inTable := true } tokens ∧
      ∃ blanks, (filled.feed settings (.closing "table".toList)).page.lines =
          filled.newLine.page.lines ++ filled.tableLines settings ++ blanks ∧
        ∀ line ∈ blanks, line = [] := by
  obtain ⟨hopened, hempty⟩ := hplace.openTag settings attributes
  obtain ⟨hfilled, hdraft⟩ := hopened.feedAll settings htokens
  exact ⟨hdraft.trans (congrArg (TableDraft.takeAll · tokens) hempty), hfilled.closeTable⟩

section Draft

open TableDraft

/-- **A table with all its end tags.** Its rows outside the header sections are drawn in their
order, and of the rows in header sections the last one is drawn as the header; so with one header
row at most, every row with cells is drawn once. -/
theorem feedAll_table (settings : Settings) (hplace : flow.TakesTable) (attributes : List Attribute)
    (lead : LooseTokens) {parts : List WrittenSection} (hclosed : ∀ part ∈ parts, part.IsClosed) :
    let headers := (headRows parts).getLast?.getD []
    let filled := flow.feedAll settings
      (.opening "table".toList attributes :: (lead.tokens ++ parts.flatMap (·.tokens)))
    ((finishDraft filled.context.table).headers = headers ∧
      (finishDraft filled.context.table).rows = bodyRows parts) ∧
    (∃ blanks, (filled.feed settings (.closing "table".toList)).page.lines =
        filled.newLine.page.lines ++
          Table.draw headers (bodyRows parts) settings.maxWidth (filled.indent settings) ++ blanks ∧
      ∀ line ∈ blanks, line = []) ∧
    ((headRows parts).length ≤ 1 →
      ([headers].filter (!·.isEmpty) ++ bodyRows parts).Perm (parts.flatMap (·.texts))) := by
  intro headers filled
  have htokens : ∀ token ∈ lead.tokens ++ parts.flatMap (·.tokens), token.InTable :=
    lead.inTable_append WrittenSection.inTable
  obtain ⟨hdraft, hlines⟩ := hplace.feedAll settings attributes htokens
  obtain ⟨hheaders, hrows⟩ := finishDraft_sections lead hclosed
  rw [← hdraft] at hheaders hrows
  rw [tableLines, hheaders, hrows] at hlines
  exact ⟨⟨hheaders, hrows⟩, hlines, headRows_perm⟩

/-- A table in an item of a list, with a header, a row without cells and a row with a bold cell. -/
theorem feedAll_table_item :
    let place := feedAll {} {} [.opening "li".toList [], .text ['x']]
    let header : WrittenCell := { header := true, content := { tokens := [.text ['A']] } }
    let bold : WrittenCell :=
      { content := { tokens :=
          [.opening "b".toList [], .text " b  c".toList, .closing "b".toList] } }
    let parts : List WrittenSection :=
      [{ tag := some .head, rows := [{ cells := [header] }] },
        { tag := some .body, rows := [{ cells := [] }, { cells := [bold] }] }]
    let filled := place.feedAll {} (.opening "table".toList [] :: parts.flatMap (·.tokens))
    (place.TakesTable ∧ (∀ part ∈ parts, part.IsClosed) ∧ (headRows parts).length ≤ 1) ∧
      ((finishDraft filled.context.table).headers = [['A']] ∧
        (finishDraft filled.context.table).rows = [["b c".toList]]) ∧
      (∃ blanks, (filled.feed {} (.closing "table".toList)).page.lines =
          filled.newLine.page.lines ++ Table.draw [['A']] [["b c".toList]]
            ({} : Settings).maxWidth (filled.indent {}) ++ blanks ∧
        ∀ line ∈ blanks, line = []) ∧
      ([[['A']]].filter (!·.isEmpty) ++ [["b c".toList]]).Perm (parts.flatMap (·.texts)) := by
  intro place header bold parts filled
  have hplace : place.TakesTable := ⟨by decide, by decide, by decide, by decide⟩
  have hclosed : ∀ part ∈ parts, part.IsClosed := by decide
  have hheader : (headRows parts).length ≤ 1 := by decide
  have hheaders : (headRows parts).getLast?.getD [] = [['A']] := by decide
  have hrows : bodyRows parts = [["b c".toList]] := by decide
  have hfilled : filled = place.feedAll {} (.opening "table".toList [] ::
      (({ tokens := [] } : LooseTokens).tokens ++ parts.flatMap (·.tokens))) := rfl
  clear_value filled
  obtain ⟨hdraft, hlines, hperm⟩ := feedAll_table {} hplace [] { tokens := [] } hclosed
  have hshown := hperm hheader
  rw [← hfilled, hheaders, hrows] at hdraft hlines
  rw [hheaders, hrows] at hshown
  exact ⟨⟨hplace, hclosed, hheader⟩, hdraft, hlines, hshown⟩

/-- Of two rows in a header section the first one is lost. -/
theorem feedAll_table_headerRows :
    let first : WrittenRow :=
      { cells := [{ header := true, content := { tokens := [.text ['A']] } }] }
    let second : WrittenRow :=
      { cells := [{ header := true, content := { tokens := [.text ['B']] } }] }
    let part : WrittenSection := { tag := some .head, rows := [first, second] }
    let table := finishDraft
      (feedAll {} {} (.opening "table".toList [] :: part.tokens)).context.table
    part.IsClosed ∧ first.texts = [['A']] ∧ [['A']] ∉ table.headers :: table.rows := by
  decide

/-- **A table of which end tags are missing**, without a header section. Rows and cells are drawn if
their end tags are written; of the last row, which may be open at the end of the table, the cells
with their end tags and the last cell are drawn too. -/
theorem feedAll_table_omitted (settings : Settings) (hplace : flow.TakesTable)
    (attributes : List Attribute) (lead : LooseTokens) (rows : List WrittenRow) :
    let filled := flow.feedAll settings
      (.opening "table".toList attributes :: (lead.tokens ++ rows.flatMap (·.tokens)))
    ((finishDraft filled.context.table).headers = [] ∧
      (finishDraft filled.context.table).rows = shownRows rows) ∧
    (∃ blanks, (filled.feed settings (.closing "table".toList)).page.lines =
        filled.newLine.page.lines ++
          Table.draw [] (shownRows rows) settings.maxWidth (filled.indent settings) ++ blanks ∧
      ∀ line ∈ blanks, line = []) ∧
    (∀ above row below, rows = above ++ row :: below → row.ended.isSome = true ∨ below = [] →
      ∀ cell ∈ row.cells, cell.ended.isSome = true → ∃ shown ∈ shownRows rows, cell.text ∈ shown) ∧
    (∀ above row before cell, rows = above ++ [row] → row.ended = none →
      row.cells = before ++ [cell] → cell.ended = none → cell.text ≠ [] →
        ∃ shown ∈ shownRows rows, cell.text ∈ shown) := by
  intro filled
  have htokens : ∀ token ∈ lead.tokens ++ rows.flatMap (·.tokens), token.InTable :=
    lead.inTable_append WrittenRow.inTable
  obtain ⟨hdraft, hlines⟩ := hplace.feedAll settings attributes htokens
  obtain ⟨hheaders, hrows⟩ := finishDraft_rows lead rows
  rw [← hdraft] at hheaders hrows
  rw [tableLines, hheaders, hrows] at hlines
  exact ⟨⟨hheaders, hrows⟩, hlines,
    fun _ _ _ heq hrow _ hcell hended => exists_shown_of_ended heq hrow hcell hended,
    fun _ _ _ _ heq hrow hcells hcell hne => exists_shown_of_open heq hrow hcells hcell hne⟩

/-- A table whose first row ends within its second cell, and whose last one is open at its end. -/
theorem feedAll_table_omitted_rows :
    let closed : WrittenCell := { content := { tokens := [.text ['a']] } }
    let unclosed : WrittenCell := { content := { tokens := [.text "b  c".toList] }, ended := none }
    let above : WrittenRow := { cells := [closed, unclosed] }
    let below : WrittenRow := { cells := [closed, unclosed], ended := none }
    let filled := feedAll {} {}
      (.opening "table".toList [] :: [above, below].flatMap (·.tokens))
    (({} : Flow).TakesTable ∧ above.ended.isSome = true ∧ closed ∈ above.cells ∧
      closed.ended.isSome = true ∧ below.ended = none ∧ unclosed.ended = none ∧
      unclosed.text ≠ []) ∧
      ((finishDraft filled.context.table).headers = [] ∧
        (finishDraft filled.context.table).rows = [[['a']], [['a'], "b c".toList]]) ∧
      (∃ blanks, (filled.feed {} (.closing "table".toList)).page.lines =
          filled.newLine.page.lines ++ Table.draw [] [[['a']], [['a'], "b c".toList]]
            ({} : Settings).maxWidth (filled.indent {}) ++ blanks ∧
        ∀ line ∈ blanks, line = []) ∧
      (∃ shown ∈ ([[['a']], [['a'], "b c".toList]] : List Row), closed.text ∈ shown) ∧
      ∃ shown ∈ ([[['a']], [['a'], "b c".toList]] : List Row), unclosed.text ∈ shown := by
  intro closed unclosed above below filled
  have hplace : ({} : Flow).TakesTable := ⟨rfl, rfl, rfl, rfl⟩
  have hne : unclosed.text ≠ [] := by decide
  have hcell : closed ∈ above.cells := List.mem_cons_self
  have hrows : shownRows [above, below] = [[['a']], [['a'], "b c".toList]] := by decide
  have hfilled : filled = feedAll {} {} (.opening "table".toList [] ::
      (({ tokens := [] } : LooseTokens).tokens ++ [above, below].flatMap (·.tokens))) := rfl
  clear_value filled
  obtain ⟨hdraft, hlines, hended, hopen⟩ :=
    feedAll_table_omitted {} hplace [] { tokens := [] } [above, below]
  have hfirst := hended [] above [below] rfl (.inl rfl) closed hcell rfl
  have hlast := hopen [above] below [closed] unclosed rfl rfl rfl rfl hne
  rw [← hfilled, hrows] at hdraft hlines
  rw [hrows] at hfirst hlast
  exact ⟨⟨hplace, rfl, hcell, rfl, rfl, rfl, hne⟩, hdraft, hlines, hfirst, hlast⟩

/-- A cell that ends at the tag of the next cell is lost. -/
theorem feedAll_table_omitted_cells :
    let first : WrittenCell := { content := { tokens := [.text ['a']] }, ended := none }
    let second : WrittenCell := { content := { tokens := [.text ['b']] }, ended := none }
    let row : WrittenRow := { cells := [first, second], ended := none }
    let table := finishDraft
      (feedAll {} {} (.opening "table".toList [] :: row.tokens)).context.table
    'a' ∈ first.content.text ∧ ∀ shown ∈ table.rows, ∀ s ∈ shown, 'a' ∉ s := by
  decide

end Draft

end Flow

end ChapterLayout
