import Mathlib.Data.List.Basic
import Mathlib.Data.List.Forall2
import Mathlib.Data.List.GetD

/-! # Facts about lists

Facts that say nothing about chapters and are needed in more than one place of the theory:

* **`map_eq_map_iff`**, **`exists_mem_zip`** — two lists that run in step;
* **`forall_mem_intercalate`** — the members of pieces that are joined;
* **`takeWhile_block`** — the first filled items, read off the ones around them;
* **`flatMap_range_getD`** — items that are read by their indices;
* **`lookup_of_not_mem`** — looking up a name that is not there. -/

namespace ChapterLayout.Lists

/-! ## (1) Two lists in step -/

/-- Two lists have the same images if their members have the same images one by one. -/
theorem map_eq_map_iff {α β γ : Type} {f : α → γ} {g : β → γ} {l : List α} {m : List β} :
    l.map f = m.map g ↔ List.Forall₂ (fun a b => f a = g b) l m := by
  rw [← List.forall₂_eq_eq_eq, List.forall₂_map_left_iff, List.forall₂_map_right_iff]

/-- Every member of the second of two lists in step has a partner in the first one. -/
theorem exists_mem_zip {α β : Type} {R : α → β → Prop} {l : List α} {m : List β} {b : β}
    (h : List.Forall₂ R l m) (hb : b ∈ m) : ∃ a, (a, b) ∈ l.zip m ∧ R a b := by
  induction h with
  | nil => exact absurd hb List.not_mem_nil
  | cons hfirst _ ih =>
    rcases List.mem_cons.1 hb with rfl | hb
    · exact ⟨_, List.mem_cons_self, hfirst⟩
    · obtain ⟨a, hmem, hR⟩ := ih hb
      exact ⟨a, List.mem_cons_of_mem _ hmem, hR⟩

/-! ## (2) Parts of lists -/

/-- What holds of all pieces and of what separates them holds of the pieces joined. -/
theorem forall_mem_intercalate {α : Type} {P : α → Prop} {sep : List α} (pieces : List (List α))
    (hsep : ∀ x ∈ sep, P x) (hpieces : ∀ piece ∈ pieces, ∀ x ∈ piece, P x) :
    ∀ x ∈ sep.intercalate pieces, P x := by
  induction pieces with
  | nil => exact fun x hx => absurd hx List.not_mem_nil
  | cons piece pieces ih =>
    have hrest := ih fun p hp => hpieces p (List.mem_cons_of_mem _ hp)
    cases pieces with
    | nil =>
      intro x hx
      exact hpieces piece List.mem_cons_self x (by simpa [List.intercalate] using hx)
    | cons next pieces =>
      intro x hx
      have hx : x ∈ piece ++ (sep ++ sep.intercalate (next :: pieces)) := by
        simpa [List.intercalate] using hx
      rcases List.mem_append.1 hx with hx | hx
      · exact hpieces piece List.mem_cons_self x hx
      · rcases List.mem_append.1 hx with hx | hx
        · exact hsep x hx
        · exact hrest x hx

/-- Items up to the first empty one are found among the next ones, if these reach that far. -/
theorem takeWhile_block {α : Type} (above : List (List α)) {block rest : List (List α)} {n : Nat}
    (hne : block ≠ []) (hblock : [] ∉ block) (hrest : ∀ item, rest.head? = some item → item = [])
    (hn : block.length ≤ n) :
    ((((above ++ (block ++ rest)).take (above.length + n)).drop above.length).dropWhile
      (·.isEmpty)).takeWhile (fun item => !item.isEmpty) = block := by
  have hfilled : ∀ item ∈ block, item.isEmpty = false := by
    intro item hitem
    rw [Bool.eq_false_iff, ne_eq, List.isEmpty_iff]
    rintro rfl
    exact hblock hitem
  obtain ⟨first, others, rfl⟩ := List.exists_cons_of_ne_nil hne
  rw [List.take_length_add_append, List.drop_left, List.take_append, List.take_of_length_le hn,
    List.cons_append, List.dropWhile_cons_of_neg (by simp [hfilled first]), ← List.cons_append,
    List.takeWhile_append_of_pos fun item hitem => by simp [hfilled item hitem]]
  -- Behind the block the next item is empty, if there is one and it is looked at.
  cases hlast : rest.take (n - (first :: others).length) with
  | nil => simp
  | cons item more =>
    have hhead : rest.head? = some item := by
      rw [← List.take_append_drop (n - (first :: others).length) rest, hlast]
      rfl
    simp [hrest item hhead]

/-! ## (3) Looking up -/

/-- Items that are read one after the other, and nothing behind them. -/
theorem flatMap_range_getD {α β : Type} (l : List α) (f : α → List β) {d : α} (hd : f d = [])
    {n : Nat} (hn : l.length ≤ n) :
    (List.range n).flatMap (fun i => f (l.getD i d)) = l.flatMap f := by
  obtain ⟨k, rfl⟩ := Nat.exists_eq_add_of_le hn
  have hitems : (List.range l.length).map (fun i => l.getD i d) = l := by
    apply List.ext_getElem
    · simp
    · intro i hi hi'
      simp [hi']
  have hnothing : ((List.range k).map (l.length + ·)).flatMap (fun i => f (l.getD i d)) = [] := by
    rw [List.flatMap_eq_nil_iff]
    intro i hi
    obtain ⟨i, -, rfl⟩ := List.mem_map.1 hi
    simp [hd]
  rw [List.range_add, List.flatMap_append, hnothing, List.append_nil]
  conv_rhs => rw [← hitems, List.flatMap_map]

/-- Nothing is found for a name that no entry has. -/
theorem lookup_of_not_mem {α β : Type} [BEq α] [LawfulBEq α] {name : α} {entries : List (α × β)}
    (h : name ∉ entries.map (·.1)) : entries.lookup name = none :=
  List.lookup_eq_none_iff.2 fun entry hentry => bne_iff_ne.2 fun heq =>
    h (List.mem_map.2 ⟨entry, hentry, heq.symm⟩)

end ChapterLayout.Lists
