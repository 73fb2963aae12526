import Mathlib.Data.List.Forall2
import ChapterLayout.Justify.Pass
import ChapterLayout.Proofs.Justify.Records
import ChapterLayout.Proofs.Limits

/-! # A page whose lines are spread

`Page.justify` takes a page line by line and moves the records along:

* **`Page.exists_of_justify`** — every line stays as it is, or is not exempt and is spread, and the
  column maps are those of the lines that were spread;
* **`Page.SpreadOf`** — what two pages have in common when one is the other with its lines spread;
* **`Page.Spreadable.spreadOf`** — a page that can be spread and the page spread, both with their
  records moved into their lines, have all that in common. -/

namespace ChapterLayout

/-- Where the gaps can be made, the line is spread. -/
theorem spread?_eq {line : Line} {maxWidth : Int} {result : Option (Line × ColumnMap)}
    (h : spread? line maxWidth = .ok result) : result = spread line maxWidth := by
  rw [spread?] at h
  split at h
  · rename_i hnone
    rw [spread, hnone]
    exact (Except.ok.inj h).symm
  · obtain ⟨-, -, h⟩ := exists_of_bind_ok h
    exact (Except.ok.inj h).symm

namespace Page

variable {page : Page} {maxWidth : Int} {threshold : Threshold}

/-! ## (1) The lines -/

/-- A line that is spread is not exempt. -/
theorem justifyLine?_eq {index : Int} {line new : Line} {map : ColumnMap}
    (h : page.justifyLine? maxWidth threshold index line = .ok (some (new, map))) :
    index ∉ page.noJustify ∧ spread line maxWidth = some (new, map) := by
  rw [justifyLine?] at h
  split at h
  · cases h
  · rename_i hexempt
    obtain ⟨fits, -, h⟩ := exists_of_bind_ok h
    refine ⟨fun hmem => hexempt (List.contains_iff_mem.2 hmem), ?_⟩
    split at h
    · exact (spread?_eq h).symm
    · cases h

/-- Every line stays as it is or is spread. -/
theorem lineSpread_of_justifyLines {index : Int} {lines : List Line}
    {result : List (Line × Option ColumnMap)}
    (h : page.justifyLines maxWidth threshold index lines = .ok result) :
    result.length = lines.length ∧ ∀ (n : Nat) (line : Line), lines[n]? = some line →
      ∃ new map, result[n]? = some (new, map) ∧
        LineSpread page maxWidth (index + n) line new map := by
  induction lines generalizing index result with
  | nil =>
    obtain rfl := Except.ok.inj h
    exact ⟨rfl, fun n line hmem => by simp at hmem⟩
  | cons line lines ih =>
    obtain ⟨first, hfirst, h⟩ := exists_of_bind_ok h
    obtain ⟨rest, hrest, h⟩ := exists_of_bind_ok h
    obtain ⟨hlength, hlines⟩ := ih hrest
    -- The first line is kept as it is or spread.
    obtain ⟨new, map, rfl, hfate⟩ : ∃ new map, result = (new, map) :: rest ∧
        LineSpread page maxWidth index line new map := by
      cases first with
      | none => exact ⟨line, none, (Except.ok.inj h).symm, .kept⟩
      | some spread =>
        obtain ⟨hexempt, hspread⟩ := justifyLine?_eq hfirst
        exact ⟨spread.1, some spread.2, (Except.ok.inj h).symm, .spread hexempt hspread⟩
    refine ⟨by rw [List.length_cons, hlength, List.length_cons], fun n other hmem => ?_⟩
    cases n with
    | zero =>
      obtain rfl := Option.some.inj hmem
      exact ⟨new, map, rfl, by simpa using hfate⟩
    | succ n =>
      obtain ⟨new', map', hmem', hfate'⟩ := hlines n other hmem
      refine ⟨new', map', hmem', ?_⟩
      rwa [Int.natCast_succ, Int.add_comm n 1, ← Int.add_assoc]

/-- Only lines have maps. -/
theorem exists_of_lookup_numberMaps {index i : Int} {maps : List (Option ColumnMap)}
    {map : ColumnMap} (h : (numberMaps index maps).lookup i = some map) :
    ∃ n : Nat, i = index + n ∧ n < maps.length := by
  induction maps generalizing index with
  | nil => cases h
  | cons first maps ih =>
    have hrest (h : (numberMaps (index + 1) maps).lookup i = some map) :
        ∃ n : Nat, i = index + n ∧ n < (first :: maps).length := by
      obtain ⟨n, rfl, hn⟩ := ih h
      exact ⟨n + 1, by omega, Nat.succ_lt_succ hn⟩
    cases first with
    | none => exact hrest h
    | some _ =>
      by_cases hi : i = index
      · exact ⟨0, by omega, Nat.succ_pos _⟩
      · rw [numberMaps, List.lookup_cons, beq_false_of_ne hi] at h
        exact hrest h

/-- The map of a line is found under the number of the line. -/
theorem lookup_numberMaps (index : Int) (maps : List (Option ColumnMap)) (n : Nat) :
    (numberMaps index maps).lookup (index + n) = maps[n]?.join := by
  induction maps generalizing index n with
  | nil => rfl
  | cons first maps ih =>
    cases n with
    | zero =>
      -- All later lines have greater numbers.
      have hlater : (numberMaps (index + 1) maps).lookup (index + (0 : Nat)) = none := by
        refine Option.eq_none_iff_forall_ne_some.2 fun map h => ?_
        obtain ⟨n, hn, -⟩ := exists_of_lookup_numberMaps h
        omega
      cases first with
      | none => exact hlater
      | some map => simp [numberMaps]
    | succ n =>
      have hne : index + (n + 1 : Nat) ≠ index := by omega
      have hshift : index + (n + 1 : Nat) = index + 1 + n := by omega
      cases first with
      | none =>
        rw [numberMaps, hshift, ih]
        rfl
      | some map =>
        rw [numberMaps, List.lookup_cons, beq_false_of_ne hne, hshift]
        exact ih (index + 1) n

/-- **Every line stays as it is or is spread** by `justify`, which changes nothing but lines,
records and column maps. -/
theorem exists_of_justify {justified : Page}
    (h : page.justify maxWidth threshold = .ok justified) :
    ∃ lines maps, page.LinesSpread maxWidth lines maps ∧ justified = { page with
      lines
      highlights := page.highlights.map (moveRecord maps)
      links := page.links.map (moveRecord maps)
      images := page.images.map (moveRecord maps)
      columnMaps := maps } := by
  obtain ⟨result, hresult, h⟩ := exists_of_bind_ok h
  obtain ⟨hlength, hlines⟩ := lineSpread_of_justifyLines hresult
  refine ⟨_, _, ⟨?_, ?_, ?_⟩, (Except.ok.inj h).symm⟩
  · rw [List.length_map, hlength]
  · intro n line hmem
    obtain ⟨new, map, hnew, hfate⟩ := hlines n line hmem
    have hlookup := lookup_numberMaps 0 (result.map (·.2)) n
    rw [Int.zero_add] at hlookup hfate
    refine ⟨new, ?_, ?_⟩
    · rw [List.getElem?_map, hnew, Option.map_some]
    · rw [hlookup, List.getElem?_map, hnew]
      exact hfate
  · intro i map hmap
    obtain ⟨n, hn, hlt⟩ := exists_of_lookup_numberMaps hmap
    refine ⟨n, by omega, ?_⟩
    rwa [List.length_map, hlength] at hlt

/-! ## (2) The page -/

/-- What a line that was spread has in common with the line as it was: the spaces at its start and
the words, where no gap is narrower than before. It takes exactly the columns that were asked
for. -/
structure SpreadLine (maxWidth : Int) (line new : Line) : Prop where
  width : (Text.width new : Int) = maxWidth
  indent : new.takeWhile Text.isSpace = line.takeWhile Text.isSpace
  words : Text.words Text.isSpace new = Text.words Text.isSpace line
  gaps : List.Forall₂ (· ≤ ·) (Text.gaps line) (Text.gaps new)

/-- What two pages have in common when the second is the first with its lines spread. -/
structure SpreadOf (maxWidth : Int) (page justified : Page) : Prop where
  length : justified.lines.length = page.lines.length
  noJustify : justified.noJustify = page.noJustify
  centered : justified.centered = page.centered
  anchors : justified.anchors = page.anchors
  headings : justified.headings = page.headings
  /-- A line without a column map stays as it is. -/
  kept : ∀ (n : Nat), justified.columnMap? n = none → justified.lines[n]? = page.lines[n]?
  /-- A line with a column map is not exempt and was spread. -/
  spread : ∀ (index : Int) (map : ColumnMap), justified.columnMap? index = some map →
    index ∉ page.noJustify ∧ ∃ line new, lineAt? page.lines index = some line ∧
      lineAt? justified.lines index = some new ∧ SpreadLine maxWidth line new
  /-- The records are the same, one by one, but for their columns and the spaces they stand over. -/
  highlights : List.Forall₂ (SameRecord page.lines justified.lines)
    page.highlights justified.highlights
  links : List.Forall₂ (SameRecord page.lines justified.lines) page.links justified.links
  images : List.Forall₂ (SameRecord page.lines justified.lines) page.images justified.images

/-- **A line that is spread** keeps its words. -/
theorem spreadLine_of_spread {line new : Line} {map : ColumnMap}
    (h : spread line maxWidth = some (new, map)) (hline : line.getLast? ≠ some ' ') :
    SpreadLine maxWidth line new := by
  obtain ⟨s, l, hsep, hadded, rfl, rfl, -, hwidth⟩ := Stretch.exists_stretches_of_spread h hline
  have hgap : ∀ t : Stretch, t.gap ≤ t.wide := fun t => Nat.le_add_right _ _
  have hwide := Stretch.wide_of_added hadded
  refine ⟨hwidth, ?_, ?_, ?_⟩
  · rw [hsep.takeWhile_laid, hsep.takeWhile_laid, hwide]
  · rw [hsep.words_laid hgap, hsep.words_laid fun _ => Nat.le_refl _]
  · -- The first gap stays as it is, and all others are positive before and after.
    have heven : ∀ t ∈ s :: l, t.gap ≤ t.wide ∧ (t.gap ≠ 0 ↔ t.wide ≠ 0) := by
      refine List.forall_mem_cons.2 ⟨⟨hgap s, by rw [hwide]⟩, fun t ht => ⟨hgap t, ?_⟩⟩
      have hpos := hsep.gap_pos t ht
      have hle := hgap t
      omega
    have hall : List.Forall₂ (fun m n => m ≤ n ∧ (m ≠ 0 ↔ n ≠ 0))
        ((s :: l).map Stretch.gap) ((s :: l).map Stretch.wide) := by
      rw [List.forall₂_map_left_iff, List.forall₂_map_right_iff, List.forall₂_same]
      exact heven
    rw [hsep.gaps_laid, hsep.gaps_laid]
    exact (List.rel_filter (fun m n h => by simpa using h.2) hall).imp fun _ _ h => h.1

/-- **The records of a page go along** one by one. -/
theorem LinesSpread.sameRecords {ρ : Type} [Positioned ρ] [LawfulPositioned ρ] {lines : List Line}
    {maps : List (Int × ColumnMap)} {records : List ρ} (h : page.LinesSpread maxWidth lines maps)
    (hspreadable : page.Spreadable) (hfollow : ∀ r ∈ records, page.CanFollow r) :
    List.Forall₂ (SameRecord page.lines lines) (clampRecords page.lines records)
      (clampRecords lines (records.map (moveRecord maps))) := by
  have hpairs : List.Forall₂ (fun r r' => page.CanFollow r ∧ r' = moveRecord maps r) records
      (records.map (moveRecord maps)) := by
    rw [List.forall₂_map_right_iff, List.forall₂_same]
    exact fun r hr => ⟨hfollow r hr, rfl⟩
  refine List.rel_filterMap ?_ hpairs
  rintro r _ ⟨hr, rfl⟩
  exact h.sameRecord hspreadable.lines hr

/-- **A page that can be spread and the page spread have everything in common** but the spaces, once
their records are moved into their lines. -/
theorem Spreadable.spreadOf {justified : Page} (hspreadable : page.Spreadable)
    (h : page.justify maxWidth threshold = .ok justified) :
    SpreadOf maxWidth page.clamp justified.clamp := by
  obtain ⟨lines, maps, hlines, rfl⟩ := exists_of_justify h
  refine ⟨hlines.length, rfl, rfl, rfl, rfl, fun n hmap => ?_, fun index map hmap => ?_, ?_, ?_, ?_⟩
  · change maps.lookup (n : Int) = none at hmap
    change lines[n]? = page.lines[n]?
    cases hmem : page.lines[n]? with
    | none => rwa [List.getElem?_eq_none_iff, hlines.length, ← List.getElem?_eq_none_iff]
    | some line =>
      obtain ⟨new, hnew, hfate⟩ := hlines.line n line hmem
      rw [hmap] at hfate
      cases hfate
      exact hnew
  · change maps.lookup index = some map at hmap
    obtain ⟨n, rfl, hn⟩ := hlines.key index map hmap
    have hmem := List.getElem?_eq_getElem hn
    obtain ⟨new, hnew, hfate⟩ := hlines.line n _ hmem
    rw [hmap] at hfate
    cases hfate with
    | spread hexempt hspread =>
      have hlast := (hspreadable.lines n _ hmem).resolve_left hexempt
      refine ⟨hexempt, _, new, ?_, ?_, spreadLine_of_spread hspread hlast⟩
      · exact (lineAt?_natCast page.lines n).trans hmem
      · exact (lineAt?_natCast lines n).trans hnew
  · -- Highlights without columns are dropped, before and after alike.
    have hrecords := hlines.sameRecords hspreadable hspreadable.highlights
    refine List.rel_filter (fun r r' hr => ?_) hrecords
    dsimp only
    rw [decide_eq_true_iff, decide_eq_true_iff]
    exact hr.columns
  · exact hlines.sameRecords hspreadable hspreadable.links
  · exact hlines.sameRecords hspreadable hspreadable.images

end Page

end ChapterLayout
