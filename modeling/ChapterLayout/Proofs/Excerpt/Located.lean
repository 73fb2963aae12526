import ChapterLayout.Proofs.Excerpt.Find

/-! # Where the characters of a collapsed text stand

`Quote.locate` walks over a text once and knows of what it has passed only whether it ended in a
blank. What it lists is the collapsed text, each of its characters with the place of the letter or
gap that it stands for:

* **`Quote.shown?`** — what a collapsed text shows for a character;
* **`Quote.pairwise_locate`** — the places are listed in their order;
* **`Quote.exists_of_getElem?_locate`** — the text is cut at a place, and no gap is cut by that;
* **`Quote.collapse_slice`** — a part of the text between two places collapses to the part of the
  collapsed text between their indices;
* **`Quote.locate_collapse`** — all this in one statement. -/

namespace ChapterLayout

/-- Whether a text is one of the gaps of a text that it stands in: it holds blanks only, and both
parts around it end there in a letter, if they are not empty. -/
structure Text.IsGap (before gap after : Text) : Prop where
  ne_nil : gap ≠ []
  blank : ∀ c ∈ gap, isBlank c = true
  before : ∀ c, before.getLast? = some c → isBlank c = false
  after : ∀ c, after.head? = some c → isBlank c = false

namespace Quote

variable {afterBlank : Bool} {index i j m n : Nat} {s t u : Text} {c d : Char}

/-! ## (1) One character at a time -/

/-- What a collapsed text shows for a character: a letter as it is, a space for the first blank of a
gap, and nothing for the others. -/
def shown? (afterBlank : Bool) (c : Char) : Option Char :=
  if Text.isBlank c then if afterBlank then none else some ' ' else some c

/-- Whether a blank stands before what comes behind a text. -/
def blankBehind (afterBlank : Bool) (u : Text) : Bool :=
  (u.getLast?.map Text.isBlank).getD afterBlank

/-- Behind no text stands what stood before it. -/
@[simp] theorem blankBehind_nil (afterBlank : Bool) : blankBehind afterBlank [] = afterBlank := rfl

/-- What stands behind a text depends on its last character only. -/
@[simp] theorem blankBehind_cons (afterBlank : Bool) (c : Char) (u : Text) :
    blankBehind afterBlank (c :: u) = blankBehind (Text.isBlank c) u := by
  cases u with
  | nil => rfl
  | cons d u =>
    cases hlast : (d :: u).getLast? with
    | none => simp at hlast
    | some e =>
      simp only [blankBehind, List.getLast?_cons_cons, hlast, Option.map_some, Option.getD_some]

/-- The walk remembers of a character whether it is a blank. -/
theorem locate_cons (afterBlank : Bool) (index : Nat) (c : Char) (s : Text) :
    locate afterBlank index (c :: s) = (shown? afterBlank c).toList.map (·, index) ++
      locate (Text.isBlank c) (index + 1) s := by
  rw [locate, shown?]
  by_cases hc : Text.isBlank c = true
  · cases afterBlank <;> simp [hc]
  · simp [hc]

/-- What is shown is a letter, or the space for a gap. -/
theorem shown?_eq_some (h : shown? (blankBehind false u) d = some c) :
    Text.isBlank d = false ∧ c = d ∨
      Text.isBlank d = true ∧ c = ' ' ∧ ∀ e, u.getLast? = some e → Text.isBlank e = false := by
  unfold shown? at h
  split at h
  · rename_i hd
    split at h
    · cases h
    · rename_i hbehind
      refine .inr ⟨hd, (Option.some.inj h).symm, fun e he => ?_⟩
      simpa [blankBehind, he] using hbehind
  · rename_i hd
    exact .inl ⟨by simpa using hd, (Option.some.inj h).symm⟩

/-! ## (2) Places -/

/-- No place comes before the start. -/
theorem le_of_mem_locate {x : Char × Nat} (hx : x ∈ locate afterBlank index s) : index ≤ x.2 := by
  induction s generalizing afterBlank index with
  | nil => simp [locate] at hx
  | cons c s ih =>
    rw [locate_cons, List.mem_append] at hx
    rcases hx with hx | hx
    · obtain ⟨e, -, rfl⟩ := List.mem_map.1 hx
      exact Nat.le_refl _
    · exact Nat.le_of_succ_le (ih hx)

/-- **The places are listed in their order,** each of them once. -/
theorem pairwise_locate (afterBlank : Bool) (index : Nat) (s : Text) :
    ((locate afterBlank index s).map (·.2)).Pairwise (· < ·) := by
  induction s generalizing afterBlank index with
  | nil => simp [locate]
  | cons c s ih =>
    have hlater : ∀ n ∈ (locate (Text.isBlank c) (index + 1) s).map (·.2), index < n := by
      intro n hn
      obtain ⟨x, hx, rfl⟩ := List.mem_map.1 hn
      exact le_of_mem_locate hx
    rw [locate_cons]
    cases shown? afterBlank c with
    | none => exact ih _ _
    | some e => exact List.pairwise_cons.2 ⟨hlater, ih _ _⟩

/-- Places are in the order of their indices. -/
theorem le_of_getElem?_locate (hij : i ≤ j) (hi : (locate afterBlank index s)[i]? = some (c, m))
    (hj : (locate afterBlank index s)[j]? = some (d, n)) : m ≤ n := by
  rcases Nat.eq_or_lt_of_le hij with rfl | hlt
  · exact Nat.le_of_eq (Prod.mk.inj (Option.some.inj (hi.symm.trans hj))).2
  · obtain ⟨hi', hm⟩ := List.getElem?_eq_some_iff.1 hi
    obtain ⟨hj', hn⟩ := List.getElem?_eq_some_iff.1 hj
    have hless := List.pairwise_iff_getElem.1 (pairwise_locate afterBlank index s) i j
      (by simpa using hi') (by simpa using hj') hlt
    simp only [List.getElem_map, hm, hn] at hless
    exact hless.le

/-- The text before a place is listed before it. -/
theorem exists_of_getElem?_locateFrom (h : (locate afterBlank index s)[i]? = some (c, n)) :
    ∃ u d v, s = u ++ d :: v ∧ n = index + u.length ∧ (locate afterBlank index u).length = i ∧
      shown? (blankBehind afterBlank u) d = some c := by
  induction s generalizing afterBlank index i with
  | nil => simp [locate] at h
  | cons e s ih =>
    rw [locate_cons] at h
    cases hshown : shown? afterBlank e with
    | none =>
      rw [hshown] at h
      obtain ⟨u, d, v, rfl, rfl, hlength, hd⟩ := ih h
      refine ⟨e :: u, d, v, rfl, by rw [List.length_cons]; omega, ?_, by rwa [blankBehind_cons]⟩
      rw [locate_cons, hshown]
      exact hlength
    | some x =>
      rw [hshown] at h
      cases i with
      | zero =>
        obtain ⟨rfl, rfl⟩ := Prod.mk.inj (Option.some.inj h)
        exact ⟨[], e, s, rfl, rfl, rfl, hshown⟩
      | succ i =>
        obtain ⟨u, d, v, rfl, rfl, hlength, hd⟩ := ih h
        refine ⟨e :: u, d, v, rfl, by rw [List.length_cons]; omega, ?_, by rwa [blankBehind_cons]⟩
        rw [locate_cons, hshown]
        exact congrArg Nat.succ hlength

/-- The collapsed text and its places are listed together. -/
theorem length_collapse (s : Text) : (Text.collapse s).length = (locate false 0 s).length := by
  rw [← List.length_map (fun x : Char × Nat => x.1), map_locate]
  rfl

/-- **A place cuts the text** before a character that is shown there. -/
theorem exists_of_getElem?_locate (h : (locate false 0 s)[i]? = some (c, n)) :
    ∃ u d v, s = u ++ d :: v ∧ u.length = n ∧ (Text.collapse u).length = i ∧
      shown? (blankBehind false u) d = some c := by
  obtain ⟨u, d, v, rfl, rfl, hlength, hd⟩ := exists_of_getElem?_locateFrom h
  exact ⟨u, d, v, rfl, (Nat.zero_add _).symm, (length_collapse u).trans hlength, hd⟩

/-! ## (3) Parts of the text -/

/-- Before a character that is shown no gap is cut. -/
theorem collapse_append_shown (h : shown? (blankBehind false u) d = some c) (t : Text) :
    Text.collapse (u ++ d :: t) = Text.collapse u ++ Text.collapse (d :: t) := by
  rw [Text.collapse_eq_collapseBy, Text.collapse_eq_collapseBy, Text.collapse_eq_collapseBy]
  rcases shown?_eq_some h with ⟨hd, -⟩ | ⟨-, -, hu⟩
  · exact Text.collapseBy_append (.inr (by simpa using hd))
  · exact Text.collapseBy_append (.inl hu)

/-- A character is shown as one character. -/
theorem length_collapse_concat (h : shown? (blankBehind false u) d = some c) :
    (Text.collapse (u ++ [d])).length = (Text.collapse u).length + 1 := by
  have hone : (Text.collapse [d]).length = 1 := by
    by_cases hd : Text.isBlank d = true <;> simp [Text.collapse, hd]
  rw [collapse_append_shown h, List.length_append, hone]

/-- The text up to a place, that of its character included, collapses to the collapsed text up to
the index. -/
theorem collapse_take (h : (locate false 0 s)[i]? = some (c, n)) :
    Text.collapse (s.take (n + 1)) = (Text.collapse s).take (i + 1) := by
  obtain ⟨u, d, v, rfl, rfl, rfl, hd⟩ := exists_of_getElem?_locate h
  have htake : (u ++ d :: v).take (u.length + 1) = u ++ [d] := by simp [List.take_length_add_append]
  have hprefix : Text.collapse (u ++ [d]) <+: Text.collapse (u ++ d :: v) := by
    rw [Text.collapse_eq_collapseBy, Text.collapse_eq_collapseBy, List.append_cons u d v]
    exact Text.collapseBy_isPrefix _ _
  rw [htake, ← length_collapse_concat hd]
  exact List.prefix_iff_eq_take.1 hprefix

/-- **A part of the text** between two places collapses to the part of the collapsed text between
their indices. -/
theorem collapse_slice (hij : i ≤ j) (hi : (locate false 0 s)[i]? = some (c, m))
    (hj : (locate false 0 s)[j]? = some (d, n)) :
    Text.collapse ((s.take (n + 1)).drop m) = ((Text.collapse s).take (j + 1)).drop i := by
  have hmn := le_of_getElem?_locate hij hi hj
  obtain ⟨u, e, v, rfl, rfl, rfl, he⟩ := exists_of_getElem?_locate hi
  obtain ⟨k, rfl⟩ : ∃ k, n = u.length + k := ⟨n - u.length, by omega⟩
  have htake : (u ++ e :: v).take (u.length + k + 1) = u ++ e :: v.take k := by
    rw [Nat.add_assoc, List.take_length_add_append, List.take_succ_cons]
  calc Text.collapse (((u ++ e :: v).take (u.length + k + 1)).drop u.length)
      = Text.collapse (e :: v.take k) := by rw [htake, List.drop_left]
    _ = (Text.collapse (u ++ e :: v.take k)).drop (Text.collapse u).length := by
        rw [collapse_append_shown he, List.drop_left]
    _ = _ := by rw [← htake, collapse_take hj]

/-- The gap that a space is shown for. -/
theorem exists_isGap (hd : Text.isBlank d = true)
    (hu : ∀ e, u.getLast? = some e → Text.isBlank e = false) (v : Text) :
    ∃ gap after, u ++ d :: v = u ++ (gap ++ after) ∧ Text.IsGap u gap after := by
  refine ⟨d :: v.takeWhile Text.isBlank, v.dropWhile Text.isBlank, ?_, List.cons_ne_nil _ _, ?_, hu,
    fun e he => ?_⟩
  · rw [List.cons_append, List.takeWhile_append_dropWhile]
  · exact List.forall_mem_cons.2 ⟨hd, fun e he => List.mem_takeWhile_imp he⟩
  · have hnone := Text.head?_dropWhile_any Text.isBlank v
    rw [he] at hnone
    simpa using hnone

/-- **A text with its places is the collapsed text.** The places are in the text and in their order.
A letter stands at its place, and any other character is the space for the gap that starts at its
place. Every part of the text between two places collapses to the part of the collapsed text between
their indices. -/
theorem locate_collapse (s : Text) :
    let located := locate false 0 s
    located.map (·.1) = Text.collapse s ∧
      (located.map (·.2)).length = (Text.collapse s).length ∧
      (located.map (·.2)).Pairwise (· < ·) ∧ (∀ n ∈ located.map (·.2), n < s.length) ∧
      (∀ i c n, located[i]? = some (c, n) → Text.isBlank c = false ∧ s[n]? = some c ∨
        c = ' ' ∧ ∃ before gap after, s = before ++ (gap ++ after) ∧
          Text.IsGap before gap after ∧ before.length = n ∧ (Text.collapse before).length = i) ∧
      ∀ i j c d m n, i ≤ j → located[i]? = some (c, m) → located[j]? = some (d, n) →
        Text.collapse ((s.take (n + 1)).drop m) = ((Text.collapse s).take (j + 1)).drop i := by
  intro located
  refine ⟨map_locate false 0 s, ?_, pairwise_locate false 0 s, fun n hn => ?_, fun i c n h => ?_,
    fun i j c d m n hij hi hj => collapse_slice hij hi hj⟩
  · rw [List.length_map, length_collapse]
  · obtain ⟨⟨c, n⟩, hx, rfl⟩ := List.mem_map.1 hn
    obtain ⟨i, hi⟩ := List.getElem?_of_mem hx
    obtain ⟨u, d, v, rfl, rfl, -⟩ := exists_of_getElem?_locate hi
    simp
  · obtain ⟨u, d, v, rfl, rfl, rfl, hshown⟩ := exists_of_getElem?_locate h
    rcases shown?_eq_some hshown with ⟨hd, rfl⟩ | ⟨hd, rfl, hu⟩
    · exact .inl ⟨hd, by simp⟩
    · obtain ⟨gap, after, hsplit, hgap⟩ := exists_isGap hd hu v
      exact .inr ⟨rfl, u, gap, after, hsplit, hgap, rfl, rfl⟩

/-- The gap of two blanks behind the first letter is shown as one space, and so is the line feed at
the end. -/
theorem locate_collapse_gaps :
    let s : Text := "a\t\u00a0b\n".toList
    (locate false 0 s).map (·.2) = [0, 1, 3, 4] ∧
      Text.collapse ((s.take 5).drop 1) = " b ".toList := by
  intro s
  have hcollapse : Text.collapse s = "a b ".toList := by
    rw [Text.collapse_eq_collapseBy]
    decide
  obtain ⟨-, -, -, -, -, hslice⟩ := locate_collapse s
  refine ⟨by decide, ?_⟩
  rw [hslice 1 3 ' ' ' ' 1 4 (by decide) (by decide) (by decide), hcollapse]
  decide

end Quote

end ChapterLayout
