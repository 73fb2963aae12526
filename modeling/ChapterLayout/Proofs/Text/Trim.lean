import ChapterLayout.Proofs.Text.Collapse

/-! # Texts without gaps at their ends

A text that neither starts nor ends in a gap keeps its place when everything around it is collapsed:

* **`IsTrimmed`** — texts without gaps at their ends; a text is one if its collapsed form is;
* **`exists_collapseBy_eq`** — where a letter stands in a collapsed text, it stands in the text;
* **`exists_collapseBy_eq_trimmed`** — and so does every text without gaps at its ends. -/

namespace ChapterLayout.Text

variable {p : Char → Bool} {c : Char} {s t u v : Text}

/-- Whether a text neither starts nor ends in a gap. -/
structure IsTrimmed (p : Char → Bool) (s : Text) : Prop where
  head : s.head?.any p = false
  last : s.getLast?.any p = false

/-! ## (1) Trimming -/

/-- A trimmed text ends in a letter. -/
theorem IsTrimmed.last_letter (h : IsTrimmed p s) : ∀ c, s.getLast? = some c → p c = false := by
  intro c hc
  have := h.last
  rw [hc] at this
  simpa using this

/-- A text without gaps at its ends starts with a letter. -/
theorem IsTrimmed.exists_cons (h : IsTrimmed p s) (hne : s ≠ []) :
    ∃ c t, s = c :: t ∧ p c = false := by
  obtain ⟨c, t, rfl⟩ := List.exists_cons_of_ne_nil hne
  exact ⟨c, t, rfl, by simpa using h.head⟩

/-- A text without gaps at its ends ends in a letter. -/
theorem IsTrimmed.exists_concat (h : IsTrimmed p s) (hne : s ≠ []) :
    ∃ t c, s = t ++ [c] ∧ p c = false := by
  obtain ⟨t, c, hs⟩ := (List.eq_nil_or_concat s).resolve_left hne
  rw [List.concat_eq_append] at hs
  exact ⟨t, c, hs, h.last_letter c (by rw [hs, List.getLast?_concat])⟩

/-- What stands behind the leading gap of a text starts with a letter. -/
theorem head?_dropWhile_any (p : Char → Bool) (s : Text) : (s.dropWhile p).head?.any p = false := by
  cases h : (s.dropWhile p).head? with
  | none => rfl
  | some c =>
    have := List.head?_dropWhile_not p s
    rw [h] at this
    simpa using this

/-- A text is its part without the gap at its end, and the gap. -/
theorem exists_trimRight (p : Char → Bool) (s : Text) : ∃ gap : Text,
    s = trimRight p s ++ gap ∧ (∀ c ∈ gap, p c = true) ∧
      (trimRight p s).getLast?.any p = false := by
  refine ⟨(s.reverse.takeWhile p).reverse, ?_, fun c hc => ?_, ?_⟩
  · rw [trimRight, ← List.reverse_append, List.takeWhile_append_dropWhile, List.reverse_reverse]
  · exact List.mem_takeWhile_imp (List.mem_reverse.1 hc)
  · rw [trimRight, List.getLast?_reverse]
    exact head?_dropWhile_any p s.reverse

/-- **A text between its gaps.** -/
theorem exists_trim (p : Char → Bool) (s : Text) : ∃ gap : Text,
    s = s.takeWhile p ++ (trimRight p (s.dropWhile p) ++ gap) ∧ (∀ c ∈ gap, p c = true) ∧
      IsTrimmed p (trimRight p (s.dropWhile p)) := by
  obtain ⟨gap, hs, hgap, hlast⟩ := exists_trimRight p (s.dropWhile p)
  refine ⟨gap, ?_, hgap, ?_, hlast⟩
  · rw [← hs, List.takeWhile_append_dropWhile]
  · -- The first letter is not part of the gap at the end.
    cases hcore : trimRight p (s.dropWhile p) with
    | nil => rfl
    | cons c core =>
      have hhead := head?_dropWhile_any p s
      rw [hs, hcore] at hhead
      exact hhead

/-- A text without gaps at its ends stays as it is when it is trimmed. -/
theorem trim_of_isTrimmed (h : IsTrimmed isBlank s) : trim s = s := by
  have hdrop : ∀ t : Text, t.head?.any isBlank = false → t.dropWhile isBlank = t := by
    intro t ht
    cases t with
    | nil => rfl
    | cons c t => exact List.dropWhile_cons_of_neg (by simpa using ht)
  rw [trim, trimLeft, hdrop s h.head, trimRight, hdrop _ (by rw [List.head?_reverse]; exact h.last),
    List.reverse_reverse]

/-- A text is trimmed by trimming it. -/
theorem isTrimmed_trim (s : Text) : IsTrimmed isBlank (trim s) := by
  obtain ⟨-, -, -, h⟩ := exists_trim isBlank s
  exact h

/-! ## (2) Collapsing -/

section Space

variable (hp : p ' ' = true)
include hp

/-- A collapsed text ends in a gap if the text does. -/
theorem getLast?_collapseBy_any (s : Text) :
    (collapseBy p s).getLast?.any p = s.getLast?.any p := by
  rcases List.eq_nil_or_concat s with rfl | ⟨t, c, rfl⟩
  · rfl
  · rw [List.concat_eq_append, List.getLast?_concat]
    by_cases hc : p c = true
    · obtain ⟨u, hu⟩ := collapseBy_isSuffix (p := p) t [c]
      rw [← hu, collapseBy_cons_last hc rfl, collapseBy_nil, List.getLast?_concat]
      simp [hp, hc]
    · have hc' : p c = false := by simpa using hc
      rw [collapseBy_concat_letter hc', List.getLast?_concat]

/-- A text has no gaps at its ends if its collapsed form has none. -/
theorem isTrimmed_collapseBy_iff : IsTrimmed p (collapseBy p s) ↔ IsTrimmed p s := by
  have hhead := head?_collapseBy_any hp s
  have hlast := getLast?_collapseBy_any hp s
  exact ⟨fun h => ⟨hhead ▸ h.head, hlast ▸ h.last⟩, fun h => ⟨hhead ▸ h.head, hlast ▸ h.last⟩⟩

/-- **A letter of a collapsed text** is a letter of the text. -/
theorem exists_collapseBy_eq (hc : p c = false) (h : collapseBy p s = u ++ c :: v) :
    ∃ a b, s = a ++ c :: b ∧ collapseBy p a = u ∧ collapseBy p b = v := by
  induction s generalizing u with
  | nil => simp at h
  | cons d s ih =>
    by_cases hd : p d = true
    · by_cases hs : s.head?.any p = true
      · -- The gap goes on.
        rw [collapseBy_cons_break hd hs] at h
        obtain ⟨a, b, rfl, hu, hv⟩ := ih h
        refine ⟨d :: a, b, rfl, ?_, hv⟩
        cases a with
        | nil => simp [hc] at hs
        | cons e a => rwa [collapseBy_cons_break (s := e :: a) hd hs]
      · rw [collapseBy_cons_last hd (by simpa using hs)] at h
        cases u with
        | nil =>
          obtain ⟨rfl, -⟩ := List.cons.inj h
          simp [hp] at hc
        | cons e u =>
          obtain ⟨rfl, hrest⟩ := List.cons.inj h
          obtain ⟨a, b, rfl, hu, hv⟩ := ih hrest
          refine ⟨d :: a, b, rfl, ?_, hv⟩
          have ha : a.head?.any p = false := by
            cases a with
            | nil => rfl
            | cons e a => simpa using hs
          rw [collapseBy_cons_last hd ha, hu]
    · have hd' : p d = false := by simpa using hd
      rw [collapseBy_cons_letter hd'] at h
      cases u with
      | nil =>
        obtain ⟨rfl, hrest⟩ := List.cons.inj h
        exact ⟨[], s, rfl, rfl, hrest⟩
      | cons e u =>
        obtain ⟨rfl, hrest⟩ := List.cons.inj h
        obtain ⟨a, b, rfl, hu, hv⟩ := ih hrest
        exact ⟨d :: a, b, rfl, by rw [collapseBy_cons_letter hd', hu], hv⟩

/-- **A text without gaps at its ends** that stands in a collapsed text is a part of the text,
collapsed. -/
theorem exists_collapseBy_eq_trimmed (ht : IsTrimmed p t) (hne : t ≠ [])
    (h : collapseBy p s = u ++ (t ++ v)) :
    ∃ a m b, s = a ++ (m ++ b) ∧ collapseBy p a = u ∧ collapseBy p m = t ∧ collapseBy p b = v := by
  obtain ⟨c, t, rfl, hc⟩ := ht.exists_cons hne
  obtain ⟨a, s, rfl, hu, hs⟩ := exists_collapseBy_eq hp hc h
  rcases List.eq_nil_or_concat t with rfl | ⟨t, d, rfl⟩
  · exact ⟨a, [c], s, rfl, hu, collapseBy_cons_letter hc, hs⟩
  · -- The last letter ends the part.
    rw [List.concat_eq_append] at ht hs ⊢
    have hd : p d = false :=
      ht.last_letter d (by rw [← List.cons_append, List.getLast?_concat])
    have hs' : collapseBy p s = t ++ d :: v := by simpa using hs
    obtain ⟨m, b, rfl, hm, hb⟩ := exists_collapseBy_eq hp hd hs'
    refine ⟨a, c :: (m ++ [d]), b, by simp, hu, ?_, hb⟩
    rw [collapseBy_cons_letter hc, collapseBy_concat_letter hd, hm]

end Space

/-- **Around a text without gaps at its ends** no gap is cut. -/
theorem IsTrimmed.collapseBy_append (ht : IsTrimmed p t) (hne : t ≠ []) (s u : Text) :
    collapseBy p (s ++ (t ++ u)) = collapseBy p s ++ (collapseBy p t ++ collapseBy p u) := by
  have hhead : ∀ c, (t ++ u).head? = some c → p c = false := by
    obtain ⟨d, t, rfl, hd⟩ := ht.exists_cons hne
    intro c hc
    obtain rfl := Option.some.inj hc
    exact hd
  rw [Text.collapseBy_append (Or.inr hhead), Text.collapseBy_append (Or.inl ht.last_letter)]

end ChapterLayout.Text
