import ChapterLayout.Style.Span

/-! # Moving records into their lines

`clampRecord?` moves a record into its line. A record that stands in its line already stays where it
is (`clampRecord?_of_le`), and a record without a line is dropped (`clampRecord?_none`). -/

namespace ChapterLayout

/-- Records whose columns can be read back, and that keep everything else when they get other
columns. -/
class LawfulPositioned (ρ : Type) [Positioned ρ] : Prop where
  line_withColumns : ∀ (r : ρ) (a b : Int),
    Positioned.line (Positioned.withColumns r a b) = Positioned.line r
  startCol_withColumns : ∀ (r : ρ) (a b : Int),
    Positioned.startCol (Positioned.withColumns r a b) = a
  endCol_withColumns : ∀ (r : ρ) (a b : Int),
    Positioned.endCol (Positioned.withColumns r a b) = b
  withColumns_withColumns : ∀ (r : ρ) (a b c d : Int),
    Positioned.withColumns (Positioned.withColumns r a b) c d = Positioned.withColumns r c d
  withColumns_self : ∀ r : ρ,
    Positioned.withColumns r (Positioned.startCol r) (Positioned.endCol r) = r

instance : LawfulPositioned Span :=
  ⟨fun _ _ _ => rfl, fun _ _ _ => rfl, fun _ _ _ => rfl, fun _ _ _ _ _ => rfl, fun _ => rfl⟩

instance : LawfulPositioned Link :=
  ⟨fun _ _ _ => rfl, fun _ _ _ => rfl, fun _ _ _ => rfl, fun _ _ _ _ _ => rfl, fun _ => rfl⟩

instance : LawfulPositioned Image :=
  ⟨fun _ _ _ => rfl, fun _ _ _ => rfl, fun _ _ _ => rfl, fun _ _ _ _ _ => rfl, fun _ => rfl⟩

export LawfulPositioned (line_withColumns startCol_withColumns endCol_withColumns
  withColumns_withColumns withColumns_self)

attribute [simp] line_withColumns startCol_withColumns endCol_withColumns withColumns_withColumns
  withColumns_self

/-- A column of a line of the given length stays where it is. -/
theorem clampColumn_of_le {col length : Int} (h : 0 ≤ col) (h' : col ≤ length) :
    clampColumn col length = col := by
  unfold clampColumn
  omega

/-- The line with a natural number. -/
theorem lineAt?_natCast (lines : List Line) (n : Nat) : lineAt? lines n = lines[n]? := by
  rw [lineAt?, if_neg (by omega), Int.toNat_natCast]

/-- A line has a natural number. -/
theorem exists_of_lineAt? {lines : List Line} {index : Int} {line : Line}
    (h : lineAt? lines index = some line) : ∃ n : Nat, index = n ∧ lines[n]? = some line := by
  obtain ⟨n, rfl⟩ : ∃ n : Nat, index = n := by
    refine Int.eq_ofNat_of_zero_le (Int.not_lt.1 fun hneg => ?_)
    rw [lineAt?, if_pos hneg] at h
    cases h
  exact ⟨n, rfl, lineAt?_natCast lines n ▸ h⟩

/-- Which lines exist depends on how many there are. -/
theorem lineAt?_eq_none {lines lines' : List Line} {index : Int} (h : lines'.length = lines.length)
    (hnone : lineAt? lines index = none) : lineAt? lines' index = none := by
  rw [lineAt?] at hnone ⊢
  by_cases hneg : index < 0
  · rw [if_pos hneg]
  · rw [if_neg hneg, List.getElem?_eq_none_iff] at hnone ⊢
    rwa [h]

variable {ρ : Type} [Positioned ρ] {lines : List Line} {line : Line} {r : ρ}

/-- Moving a record into its line leaves the record on its line. -/
theorem line_of_clampRecord? [LawfulPositioned ρ] {r' : ρ} (h : clampRecord? lines r = some r') :
    Positioned.line r' = Positioned.line r := by
  obtain ⟨line, -, rfl⟩ := Option.map_eq_some_iff.1 h
  exact line_withColumns r _ _

/-- A record without a line is dropped. -/
theorem clampRecord?_none (h : lineAt? lines (Positioned.line r) = none) :
    clampRecord? lines r = none := by
  rw [clampRecord?, h, Option.map_none]

/-- A record in its line stays where it is. -/
theorem clampRecord?_of_le [LawfulPositioned ρ]
    (hline : lineAt? lines (Positioned.line r) = some line) (hstart : 0 ≤ Positioned.startCol r)
    (hle : Positioned.startCol r ≤ Positioned.endCol r) (hend : Positioned.endCol r ≤ line.length) :
    clampRecord? lines r = some r := by
  rw [clampRecord?, hline, Option.map_some, clampColumn_of_le hstart (by omega),
    clampColumn_of_le (by omega) hend]
  dsimp only
  rw [Int.max_eq_right hle, withColumns_self]

end ChapterLayout
