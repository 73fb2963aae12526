import ChapterLayout.Proofs.Justify.Stretch
import ChapterLayout.Proofs.Limits
import ChapterLayout.Proofs.Number.Rounding
import ChapterLayout.Settings.Basic

/-! # Spreading lines within the limits

Spreading the lines of a page fails at the first line that is neither exempt nor blank if the width
of the page has no nearest number, and at a full line if memory cannot hold a gap of it:

* **`Threshold.exists_leastWidth_iff`** — when the least width of a full line can be computed;
* **`le_of_mem_spreadGaps?`** — no gap gets wider than the page;
* **`Page.SpreadsFit`** — whether all of this holds for every line that may be spread;
* **`Page.exists_justify_iff`** — the lines of a page can be spread exactly if it does;
* **`Page.spreadsFit_of_lt`** — and it does if memory can hold a line of the width of the page. -/

namespace ChapterLayout

open Binary64 (overflow)

variable {maxWidth : Int} {threshold : Threshold} {line : Line}

/-! ## (1) The least width -/

namespace Threshold

/-- Whether the least width can be computed: the product of integers is exact, and otherwise the
width of the page needs a nearest number. -/
def FitsWidth (threshold : Threshold) (maxWidth : Int) : Prop :=
  (∃ i, threshold = whole i) ∨ maxWidth.natAbs < overflow

/-- **The least width of a full line** can be computed exactly if the width of the page has a
nearest number or is multiplied by an integer. -/
theorem exists_leastWidth_iff (hunit : threshold.inUnitRange = true) :
    (∃ least, threshold.leastWidth maxWidth = .ok least) ↔ threshold.FitsWidth maxWidth := by
  cases threshold with
  | whole i => exact iff_of_true ⟨_, rfl⟩ (.inl ⟨i, rfl⟩)
  | fraction x =>
    have hfits : (fraction x).FitsWidth maxWidth ↔ maxWidth.natAbs < overflow := by
      simp [FitsWidth]
    obtain ⟨k, f, rfl, hle⟩ := Binary64.exists_of_inUnitRange hunit
    rw [hfits, leastWidth]
    rcases Binary64.ofInt?_spec maxWidth with ⟨hover, hnone⟩ | ⟨hlt, s, m, e, hsome, hm, he⟩
    · rw [hnone]
      exact iff_of_false (fun ⟨_, h⟩ => by cases h) (Nat.not_lt.2 hover)
    · -- The product is at most the width, so it is finite and has an integer below it.
      obtain ⟨t, m', e', hmul⟩ := Binary64.exists_mul_of_unit s false hm he hle
      simp only [hsome, hmul]
      exact iff_of_true ⟨_, rfl⟩ hlt

/-- With an integer for a threshold a full line is as wide as the page, and not spread. -/
theorem isJustifiable_whole {i : Int} (hunit : (whole i).inUnitRange = true) (line : Line) :
    isJustifiable line maxWidth (whole i) = .ok false := by
  simp only [inUnitRange, Bool.and_eq_true, decide_eq_true_eq] at hunit
  obtain rfl : i = 1 := by omega
  rw [isJustifiable]
  split
  · rfl
  · simp only [leastWidth, Int.mul_one]
    refine congrArg Except.ok ?_
    rw [← Bool.decide_and, decide_eq_false_iff_not]
    omega

end Threshold

/-! ## (2) The gaps -/

namespace Stretch

/-- A gap is part of its line. -/
theorem wide_le_width_laid {l : List Stretch} {s : Stretch} (h : s ∈ l) :
    s.wide ≤ Text.width (laid wide l) := by
  induction l with
  | nil => cases h
  | cons t l ih =>
    rw [width_laid_cons]
    rcases List.mem_cons.1 h with rfl | h
    · omega
    · have := ih h
      omega

/-- The gaps of a line are natural numbers. -/
theorem exists_of_mem_widened {column : Nat} {l : List Stretch} {gap : Int × Run}
    (h : gap ∈ widened column l) : ∃ s ∈ l, gap.1 = s.wide := by
  obtain ⟨width, run⟩ := gap
  have hwidth := (List.of_mem_zip h).1
  obtain ⟨s, hs, rfl⟩ := List.mem_map.1 hwidth
  exact ⟨s, hs, rfl⟩

end Stretch

/-- **No gap gets wider than the page**, and none is negative. -/
theorem le_of_mem_spreadGaps? {gaps : List (Int × Run)}
    (h : spreadGaps? line maxWidth = some gaps) : ∀ gap ∈ gaps, 0 ≤ gap.1 ∧ gap.1 ≤ maxWidth := by
  obtain ⟨l, n, -, hadded, heq, hruns⟩ := Stretch.exists_stretches line
  obtain ⟨first, second, rest, rfl, hmissing, rfl⟩ :=
    Stretch.exists_of_spreadGaps? (hruns 0) hadded h
  intro gap hgap
  obtain ⟨s, hs, hwide⟩ := Stretch.exists_of_mem_widened hgap
  have hle := Stretch.wide_le_width_laid hs
  have hfirst : first.added = 0 := hadded first List.mem_cons_self
  have hshared := Stretch.width_laid_sharedOut hmissing.le hfirst (List.cons_ne_nil second rest)
  have hwidth := congrArg Text.width heq
  rw [Text.width_append] at hwidth
  omega

/-! ## (3) Pages -/

namespace Page

variable {page : Page}

/-- Whether a line of a page can be spread, or need not be: if it is neither exempt nor blank, the
least width can be computed, and if it is full, memory can hold its gaps. -/
def SpreadFits (page : Page) (maxWidth : Int) (threshold : Threshold) (index : Int) (line : Line) :
    Prop :=
  index ∉ page.noJustify → Text.isAllBlank line = false → threshold.FitsWidth maxWidth ∧
    (isJustifiable line maxWidth threshold = .ok true → ∀ gaps,
      spreadGaps? line maxWidth = some gaps → ∀ gap ∈ gaps, gap.1 < LimitError.memorySize)

/-- Whether every line of a page can be spread or need not be. -/
def SpreadsFit (page : Page) (maxWidth : Int) (threshold : Threshold) : Prop :=
  ∀ (n : Nat) (line : Line), page.lines[n]? = some line →
    page.SpreadFits maxWidth threshold n line

/-- Memory can hold a line spread exactly if it can hold its gaps. -/
theorem exists_spread?_iff : (∃ result, spread? line maxWidth = .ok result) ↔
    ∀ gaps, spreadGaps? line maxWidth = some gaps → ∀ gap ∈ gaps,
      gap.1 < LimitError.memorySize := by
  rw [spread?]
  cases hgaps : spreadGaps? line maxWidth with
  | none => exact iff_of_true ⟨none, rfl⟩ (by simp)
  | some gaps =>
    have hnonneg : ∀ count ∈ gaps.map (·.1), 0 ≤ count :=
      List.forall_mem_map.2 fun gap hgap => (le_of_mem_spreadGaps? hgaps gap hgap).1
    have hcheck := LimitError.checkCopies_eq_ok_iff hnonneg
    rw [List.forall_mem_map] at hcheck
    simp only [exists_bind_ok_iff, Option.some.injEq, forall_eq', ← hcheck]
    constructor
    · rintro ⟨⟨⟩, h, -⟩
      exact h
    · intro h
      exact ⟨(), h, _, rfl⟩

/-- A line of a page can be spread, or need not be. -/
theorem exists_justifyLine?_iff (hunit : threshold.inUnitRange = true) {index : Int} :
    (∃ result, page.justifyLine? maxWidth threshold index line = .ok result) ↔
      page.SpreadFits maxWidth threshold index line := by
  rw [justifyLine?, SpreadFits]
  by_cases hexempt : index ∈ page.noJustify
  · rw [if_pos (List.contains_iff_mem.2 hexempt)]
    exact iff_of_true ⟨none, rfl⟩ fun h => absurd hexempt h
  rw [if_neg (by simpa using hexempt)]
  by_cases hblank : Text.isAllBlank line = true
  · rw [isJustifiable, if_pos hblank]
    exact iff_of_true ⟨none, rfl⟩ fun _ h => absurd (hblank.symm.trans h) (by decide)
  have hblank' : Text.isAllBlank line = false := by simpa using hblank
  rw [exists_bind_ok_iff, ← exists_spread?_iff, ← Threshold.exists_leastWidth_iff hunit]
  simp only [hexempt, hblank', not_false_eq_true, true_imp_iff]
  rw [isJustifiable, if_neg hblank]
  -- Without a least width the line is not looked at.
  cases threshold.leastWidth maxWidth with
  | error e => exact iff_of_false (fun ⟨_, h, _⟩ => by cases h) (fun ⟨⟨_, h⟩, _⟩ => by cases h)
  | ok least =>
    constructor
    · rintro ⟨fits, hfits, hspread⟩
      refine ⟨⟨least, rfl⟩, fun htrue => ?_⟩
      obtain rfl : fits = true := Except.ok.inj (hfits.symm.trans htrue)
      exact hspread
    · rintro ⟨-, hspread⟩
      refine ⟨_, rfl, ?_⟩
      split
      · rename_i hfits
        exact hspread (congrArg Except.ok hfits)
      · exact ⟨none, rfl⟩

/-- Lines can be justified just if each of them can. -/
theorem exists_justifyLines_iff (hunit : threshold.inUnitRange = true) {index : Int}
    {lines : List Line} :
    (∃ result, page.justifyLines maxWidth threshold index lines = .ok result) ↔
      ∀ (n : Nat) (line : Line), lines[n]? = some line →
        page.SpreadFits maxWidth threshold (index + n) line := by
  induction lines generalizing index with
  | nil => exact iff_of_true ⟨[], rfl⟩ fun n line h => by simp at h
  | cons first lines ih =>
    -- The lines are spread one by one, and the first one that fails ends the pass.
    have hsplit : (∃ result, page.justifyLines maxWidth threshold index (first :: lines) =
        .ok result) ↔
        (∃ spread, page.justifyLine? maxWidth threshold index first = .ok spread) ∧
          ∃ rest, page.justifyLines maxWidth threshold (index + 1) lines = .ok rest := by
      rw [justifyLines, exists_bind_ok_iff]
      refine ⟨fun ⟨spread, hspread, h⟩ => ?_, fun ⟨⟨spread, hspread⟩, rest, hrest⟩ => ?_⟩
      · obtain ⟨rest, hrest, -⟩ := exists_bind_ok_iff.1 h
        exact ⟨⟨spread, hspread⟩, rest, hrest⟩
      · exact ⟨spread, hspread, exists_bind_ok_iff.2 ⟨rest, hrest, _, rfl⟩⟩
    rw [hsplit, exists_justifyLine?_iff hunit, ih]
    constructor
    -- The first line has the index of the pass, and the others have the next ones.
    · rintro ⟨hfirst, hrest⟩ n line hline
      cases n with
      | zero =>
        obtain rfl := Option.some.inj hline
        simpa using hfirst
      | succ n =>
        have h := hrest n line hline
        rwa [Int.add_assoc, Int.add_comm 1] at h
    · intro h
      refine ⟨by simpa using h 0 first rfl, fun n line hline => ?_⟩
      rw [Int.add_assoc, Int.add_comm 1]
      exact h (n + 1) line hline

/-- **The lines of a page can be spread** exactly if every line can be or need not be. -/
theorem exists_justify_iff (hunit : threshold.inUnitRange = true) :
    (∃ justified, page.justify maxWidth threshold = .ok justified) ↔
      page.SpreadsFit maxWidth threshold := by
  have hlines : (∃ result, page.justifyLines maxWidth threshold 0 page.lines = .ok result) ↔
      page.SpreadsFit maxWidth threshold := by
    rw [exists_justifyLines_iff hunit, SpreadsFit]
    simp only [Int.zero_add]
  rw [← hlines, justify, exists_bind_ok_iff]
  exact ⟨fun ⟨result, h, _⟩ => ⟨result, h⟩, fun ⟨result, h⟩ => ⟨result, h, _, rfl⟩⟩

/-- **The lines of a page can be spread** if memory can hold a line of the width of the page, or the
threshold is an integer. -/
theorem spreadsFit_of_lt (page : Page) (hunit : threshold.inUnitRange = true) (hpos : 0 < maxWidth)
    (h : (∃ i, threshold = .whole i) ∨ maxWidth < LimitError.memorySize) :
    page.SpreadsFit maxWidth threshold := by
  intro n line _ _ _
  rcases h with ⟨i, rfl⟩ | hlt
  · refine ⟨.inl ⟨i, rfl⟩, fun hfull => ?_⟩
    rw [Threshold.isJustifiable_whole hunit line] at hfull
    cases hfull
  · refine ⟨.inr (Binary64.lt_overflow ?_), fun _ gaps hgaps gap hgap => ?_⟩
    · have hmax := LimitError.memorySize_le_maxLength
      unfold LimitError.maxLength at hmax
      omega
    · exact Int.lt_of_le_of_lt (le_of_mem_spreadGaps? hgaps gap hgap).2 hlt

end Page

end ChapterLayout
