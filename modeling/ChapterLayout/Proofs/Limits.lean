import ChapterLayout.Limits

/-! # Within the limits of the machine

A computation that checks counts of copies has a result exactly if memory can hold all of them:

* **`exists_bind_ok_iff`** — a computation has a result exactly if each of its steps has one;
* **`LimitError.checkCopies_eq_ok_iff`** — counts pass the check exactly if memory can hold each. -/

namespace ChapterLayout

/-- A computation with a result has one at every step. -/
theorem exists_of_bind_ok {ε α β : Type} {x : Except ε α} {f : α → Except ε β} {b : β}
    (h : x >>= f = .ok b) : ∃ a, x = .ok a ∧ f a = .ok b := by
  cases x with
  | error e => cases h
  | ok a => exact ⟨a, rfl, h⟩

/-- A computation has a result exactly if its first step and what follows it have one. -/
theorem exists_bind_ok_iff {ε α β : Type} {x : Except ε α} {f : α → Except ε β} :
    (∃ b, x >>= f = .ok b) ↔ ∃ a, x = .ok a ∧ ∃ b, f a = .ok b := by
  constructor
  · rintro ⟨b, h⟩
    obtain ⟨a, ha, hb⟩ := exists_of_bind_ok h
    exact ⟨a, ha, b, hb⟩
  · rintro ⟨a, rfl, h⟩
    exact h

namespace LimitError

/-- Memory can hold some text. -/
theorem memorySize_pos : 0 < memorySize := by decide

/-- Memory ends before the lengths that fit into a machine word do. -/
theorem memorySize_le_maxLength : memorySize ≤ maxLength := by decide

/-- A count of copies is in order if memory can hold them. -/
theorem ofCopies?_eq_none_iff {count : Int} (h : 0 ≤ count) :
    ofCopies? count = none ↔ count < memorySize := by
  have hmax := memorySize_le_maxLength
  rw [ofCopies?]
  split
  · rename_i hword
    simp only [Bool.or_eq_true, decide_eq_true_eq] at hword
    exact iff_of_false (by simp) (by omega)
  · split
    · rename_i hle
      exact iff_of_false (by simp) (Int.not_lt.2 hle)
    · rename_i hlt
      exact iff_of_true rfl (Int.not_le.1 hlt)

/-- **Counts of copies pass the check** exactly if memory can hold each of them. -/
theorem checkCopies_eq_ok_iff {counts : List Int} (h : ∀ count ∈ counts, 0 ≤ count) :
    checkCopies counts = .ok () ↔ ∀ count ∈ counts, count < memorySize := by
  induction counts with
  | nil => exact iff_of_true rfl (by simp)
  | cons count counts ih =>
    obtain ⟨hcount, hcounts⟩ := List.forall_mem_cons.1 h
    rw [List.forall_mem_cons, ← ofCopies?_eq_none_iff hcount, ← ih hcounts, checkCopies]
    cases ofCopies? count with
    | none => simp
    | some e => simp

end LimitError

end ChapterLayout
