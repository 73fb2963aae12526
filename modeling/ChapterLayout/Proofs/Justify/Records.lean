import ChapterLayout.Proofs.Justify.Columns
import ChapterLayout.Proofs.Style.Clamp
import ChapterLayout.Proofs.Style.OnWords

/-! # Records of a line that is spread

A record on words goes along when its line is spread (`OnWords.spread`): it still has columns, these
are columns of the line spread, and the text over them is the same up to spaces. This is what
`SameRecord` asks of a record before and after. -/

namespace ChapterLayout

/-- The items of a list between two positions that are counted from its start. -/
theorem Slice.cut_natCast {α : Type} (l : List α) (a b : Nat) :
    Slice.cut l a b = (l.take b).drop a := by
  have hposition : ∀ n : Nat, Slice.position l.length n = min n l.length := by
    intro n
    rw [Slice.position, if_neg (by omega), Int.toNat_natCast]
  rw [Slice.cut, hposition, hposition, ← List.take_eq_take_min]
  by_cases ha : a ≤ l.length
  · rw [Nat.min_eq_left ha]
  · have hlength := List.length_take_le' b l
    rw [Nat.min_eq_right (Nat.le_of_not_le ha), List.drop_eq_nil_of_le hlength,
      List.drop_eq_nil_of_le (by omega)]

variable {ρ : Type} [Positioned ρ] {lines lines' : List Line} {line new : Line} {r r' : ρ}
  {map : ColumnMap} {maxWidth : Int}

/-- The text a record stands over. -/
def markedText? (lines : List Line) (r : ρ) : Option Text :=
  (lineAt? lines (Positioned.line r)).map fun line =>
    Slice.cut line (Positioned.startCol r) (Positioned.endCol r)

/-- The text at a record is that between its columns. -/
theorem markedText?_of_line (hline : lineAt? lines (Positioned.line r) = some line) :
    markedText? lines r = some (Slice.cut line (Positioned.startCol r) (Positioned.endCol r)) := by
  rw [markedText?, hline, Option.map_some]

/-- Whether two records on two pages are the same but for their columns: everything else is equal,
both stand over a text or neither does, and the text they stand over is the same up to spaces. -/
structure SameRecord (lines lines' : List Line) (r r' : ρ) : Prop where
  record : r' = Positioned.withColumns r (Positioned.startCol r') (Positioned.endCol r')
  columns : Positioned.startCol r < Positioned.endCol r ↔
    Positioned.startCol r' < Positioned.endCol r'
  text : ∃ s s', markedText? lines r = some s ∧ markedText? lines' r' = some s' ∧
    Text.squash s = Text.squash s'

/-- **A record on words goes along** when its line is spread. -/
theorem OnWords.spread (h : OnWords line r) (hline : line.getLast? ≠ some ' ')
    (hspread : spread line maxWidth = some (new, map)) :
    ∃ a b : Nat, map.forward (Positioned.startCol r) = a ∧ map.forward (Positioned.endCol r) = b ∧
      a < b ∧ b ≤ new.length ∧
      Text.squash (Slice.cut line (Positioned.startCol r) (Positioned.endCol r)) =
        Text.squash (Slice.cut new a b) := by
  obtain ⟨i, e, hi, he, hlt, hletter, hletter'⟩ := h
  obtain ⟨s, l, hsep, -, rfl, rfl, rfl, -⟩ := Stretch.exists_stretches_of_spread hspread hline
  obtain ⟨k, rfl⟩ : ∃ k, e = k + 1 := Nat.exists_eq_add_one.2 (by omega)
  -- The column behind the record may be a space, so its end follows the letter before it.
  obtain ⟨a, ha⟩ := Stretch.Aligned.exists_of_letterAt hletter
  obtain ⟨b, hb⟩ := Stretch.Aligned.exists_of_letterAt hletter'
  rw [Nat.add_sub_cancel] at hb
  have hab : a ≤ b := ha.le hb (by omega)
  have hk := hb.lt_length
  have hstart := ha.forward (Nat.zero_le 1) hsep
  have hend := hb.forward (Nat.le_refl 1) hsep
  refine ⟨a, b + 1, hi ▸ hstart, he ▸ hend, by omega, hk.2, ?_⟩
  rw [hi, he, Slice.cut_natCast, Slice.cut_natCast]
  exact (ha.between hb (by omega) hsep).squash_eq

/-- **Records on words keep their order** when their line is spread. -/
theorem forward_le_of_onWords (h : OnWords line r) (h' : OnWords line r')
    (hline : line.getLast? ≠ some ' ') (hspread : spread line maxWidth = some (new, map))
    (hle : Positioned.startCol r ≤ Positioned.startCol r') :
    map.forward (Positioned.startCol r) ≤ map.forward (Positioned.startCol r') := by
  obtain ⟨i, -, hi, -, -, hletter, -⟩ := h
  obtain ⟨i', -, hi', -, -, hletter', -⟩ := h'
  obtain ⟨s, l, hsep, -, rfl, rfl, rfl, -⟩ := Stretch.exists_stretches_of_spread hspread hline
  obtain ⟨j, hj⟩ := Stretch.Aligned.exists_of_letterAt hletter
  obtain ⟨j', hj'⟩ := Stretch.Aligned.exists_of_letterAt hletter'
  have hjj : j ≤ j' := hj.le hj' (by omega)
  have hnew := hj.forward (Nat.zero_le 1) hsep
  have hnew' := hj'.forward (Nat.zero_le 1) hsep
  rw [Nat.add_zero, Nat.add_zero] at hnew hnew'
  rw [hi, hi', hnew, hnew']
  exact Int.ofNat_le.2 hjj

/-- What may become of a line and its column map. -/
inductive LineSpread (page : Page) (maxWidth index : Int) (line : Line) :
    Line → Option ColumnMap → Prop where
  /-- The line stays as it is. -/
  | kept : LineSpread page maxWidth index line line none
  /-- The line is not exempt and its words are spread. -/
  | spread {new : Line} {map : ColumnMap} (hexempt : index ∉ page.noJustify)
    (hspread : spread line maxWidth = some (new, map)) :
    LineSpread page maxWidth index line new (some map)

/-- Whether the lines of a page became new ones, line by line, with the column maps of those that
were spread. -/
structure Page.LinesSpread (page : Page) (maxWidth : Int) (lines : List Line)
    (maps : List (Int × ColumnMap)) : Prop where
  length : lines.length = page.lines.length
  line : ∀ (n : Nat) (line : Line), page.lines[n]? = some line →
    ∃ new, lines[n]? = some new ∧ LineSpread page maxWidth n line new (maps.lookup (n : Int))
  key : ∀ (index : Int) (map : ColumnMap), maps.lookup index = some map →
    ∃ n : Nat, index = n ∧ n < page.lines.length

/-- A record that moves along stays on its line. -/
theorem Page.line_moveRecord [LawfulPositioned ρ] (maps : List (Int × ColumnMap)) (r : ρ) :
    Positioned.line (Page.moveRecord maps r) = Positioned.line r := by
  rw [Page.moveRecord]
  split
  · exact line_withColumns r _ _
  · rfl

/-- A record on a line that stays stays the same. -/
theorem sameRecord_kept [LawfulPositioned ρ] {line : Line}
    (hline : lineAt? lines (Positioned.line r) = some line)
    (hline' : lineAt? lines' (Positioned.line r) = some line) : SameRecord lines lines' r r where
  record := (withColumns_self r).symm
  columns := Iff.rfl
  text := ⟨_, _, markedText?_of_line hline, markedText?_of_line hline', rfl⟩

/-- **Every record of a page goes along** when its lines are spread, and is dropped before and after
if it has no line. -/
theorem Page.LinesSpread.sameRecord [LawfulPositioned ρ] {page : Page}
    {maps : List (Int × ColumnMap)} (h : page.LinesSpread maxWidth lines maps)
    (htrimmed : page.LinesTrimmed) (hfollow : page.CanFollow r) :
    Option.Rel (SameRecord page.lines lines) (clampRecord? page.lines r)
      (clampRecord? lines (Page.moveRecord maps r)) := by
  cases hline : lineAt? page.lines (Positioned.line r) with
  | none =>
    have hline' : lineAt? lines (Positioned.line (Page.moveRecord maps r)) = none := by
      rw [Page.line_moveRecord]
      exact lineAt?_eq_none h.length hline
    rw [clampRecord?_none hline, clampRecord?_none hline']
    exact .none
  | some line =>
    obtain ⟨n, hn, hmem⟩ := exists_of_lineAt? hline
    obtain ⟨new, hnew, hfate⟩ := h.line n line hmem
    generalize hmap : maps.lookup (n : Int) = map at hfate
    cases hfate with
    | kept =>
      -- Any record may stand here, also one that reaches beyond the line.
      have hmoved : Page.moveRecord maps r = r := by
        rw [Page.moveRecord, hn, hmap]
      have hline' : lineAt? lines (Positioned.line r) = some line := by
        rw [hn, lineAt?_natCast, hnew]
      obtain ⟨clamped, hclamped⟩ : ∃ clamped, clampRecord? page.lines r = some clamped :=
        ⟨_, by rw [clampRecord?, hline, Option.map_some]⟩
      have hclamped' : clampRecord? lines r = some clamped := by
        rw [← hclamped, clampRecord?, clampRecord?, hline, hline']
      have hsame := line_of_clampRecord? hclamped
      rw [hmoved, hclamped, hclamped']
      exact .some (sameRecord_kept (hsame ▸ hline) (hsame ▸ hline'))
    | @spread _ map hexempt hspread =>
      -- The line is not exempt, so the record stands on words and inside the line.
      have hwords : OnWords line r := (hfollow n line hn hmem).resolve_left hexempt
      have hend := (htrimmed n line hmem).resolve_left hexempt
      obtain ⟨a, b, ha, hb, hlt, hle, htext⟩ := hwords.spread hend hspread
      obtain ⟨i, e, hi, he, hlt', -, hletter⟩ := hwords
      have hbound := hletter.lt
      have hmoved : Page.moveRecord maps r = Positioned.withColumns r a b := by
        rw [Page.moveRecord, hn, hmap]
        dsimp only
        rw [ColumnMap.move, ha, hb]
      have hline' : lineAt? lines (Positioned.line (Positioned.withColumns r (a : Int) b)) =
          some new := by
        rw [line_withColumns, hn, lineAt?_natCast, hnew]
      have hstay : clampRecord? page.lines r = some r :=
        clampRecord?_of_le hline (by omega) (by omega) (by omega)
      have hstay' : clampRecord? lines (Positioned.withColumns r (a : Int) b) =
          some (Positioned.withColumns r a b) := by
        refine clampRecord?_of_le hline' ?_ ?_ ?_
        all_goals simp only [startCol_withColumns, endCol_withColumns]
        all_goals omega
      rw [hmoved, hstay, hstay']
      refine .some ⟨?_, ?_, ?_⟩
      · simp
      · rw [startCol_withColumns, endCol_withColumns]
        omega
      · have hmarked := markedText?_of_line hline'
        rw [startCol_withColumns, endCol_withColumns] at hmarked
        exact ⟨_, _, markedText?_of_line hline, hmarked, htext⟩

end ChapterLayout
