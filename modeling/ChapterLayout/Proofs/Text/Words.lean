import Mathlib.Data.List.Basic
import ChapterLayout.Text.Basic

/-! # The words of a text

Laws of `Text.words p`, which lists the maximal runs of characters outside the class `p`:

* **`words_flatten`** — the words hold the characters outside the class, in order;
* **`words_append_break`** — cutting at a character of the class splits the word list;
* **`words_append_glue`** — joining two texts at two letters glues the last word of the first to the
  first word of the second, and no other word changes.

The last two say what the words of a text are when it arrives in pieces. -/

namespace ChapterLayout.Text

variable {p : Char → Bool} {c d : Char} {s t w v : Text} {ws vs : List Text}

/-! ## (1) One character at a time -/

/-- The empty text has no words. -/
@[simp] theorem words_nil : words p [] = [] := rfl

/-- A character of the class belongs to no word. -/
theorem words_cons_break (hc : p c = true) : words p (c :: s) = words p s := by
  rw [words.eq_def]
  simp [hc]

/-- A letter at the end of the text is a word. -/
theorem words_singleton (hc : p c = false) : words p [c] = [[c]] := by
  simp [words, hc]

/-- A letter before a character of the class is a word. -/
theorem words_cons_cons_break (hc : p c = false) (hd : p d = true) :
    words p (c :: d :: s) = [c] :: words p (d :: s) := by
  rw [words.eq_def]
  simp [hc, hd]

/-- A letter before another one belongs to the word of that one. -/
theorem words_cons_cons_letter (hc : p c = false) (hd : p d = false)
    (hs : words p (d :: s) = w :: ws) : words p (c :: d :: s) = (c :: w) :: ws := by
  rw [words.eq_def]
  simp [hc, hd, hs]

/-- A text that starts with a letter has a first word, which starts with that letter. -/
theorem exists_words_cons (hc : p c = false) :
    ∃ w ws, words p (c :: s) = (c :: w) :: ws := by
  induction s generalizing c with
  | nil => exact ⟨[], [], words_singleton hc⟩
  | cons d s ih =>
    by_cases hd : p d = true
    · exact ⟨[], _, words_cons_cons_break hc hd⟩
    · obtain ⟨w, ws, h⟩ := ih (c := d) (by simpa using hd)
      exact ⟨d :: w, ws, words_cons_cons_letter hc (by simpa using hd) h⟩

/-! ## (2) What the words hold -/

/-- **The words hold the letters.** The characters of the words, one word after the other, are the
characters of the text outside the class. -/
theorem words_flatten (p : Char → Bool) (s : Text) :
    (words p s).flatten = s.filter fun c => !p c := by
  induction s with
  | nil => rfl
  | cons c s ih =>
    by_cases hc : p c = true
    · rw [words_cons_break hc, ih, List.filter_cons_of_neg (by simp [hc])]
    · have hc' : p c = false := by simpa using hc
      rw [List.filter_cons_of_pos (by simp [hc']), ← ih]
      cases s with
      | nil => rw [words_singleton hc']; rfl
      | cons d s =>
        by_cases hd : p d = true
        · rw [words_cons_cons_break hc' hd]
          rfl
        · obtain ⟨w, ws, h⟩ := exists_words_cons (p := p) (c := d) (s := s) (by simpa using hd)
          rw [words_cons_cons_letter hc' (by simpa using hd) h, h]
          rfl

/-- A word is not empty. -/
theorem ne_nil_of_mem_words : ∀ {s : Text}, w ∈ words p s → w ≠ []
  | [], h => by simp at h
  | c :: s, h => by
    by_cases hc : p c = true
    · rw [words_cons_break hc] at h
      exact ne_nil_of_mem_words h
    · have hc' : p c = false := by simpa using hc
      cases s with
      | nil =>
        rw [words_singleton hc', List.mem_singleton] at h
        simp [h]
      | cons d s =>
        by_cases hd : p d = true
        · rw [words_cons_cons_break hc' hd, List.mem_cons] at h
          rcases h with rfl | h
          · simp
          · exact ne_nil_of_mem_words h
        · obtain ⟨v, vs, hv⟩ := exists_words_cons (p := p) (c := d) (s := s) (by simpa using hd)
          rw [words_cons_cons_letter hc' (by simpa using hd) hv, List.mem_cons] at h
          rcases h with rfl | h
          · simp
          · exact @ne_nil_of_mem_words (d :: s) (hv ▸ List.mem_cons_of_mem _ h)

/-- A word holds letters only. -/
theorem letter_of_mem_words (hw : w ∈ words p s) (hc : c ∈ w) : p c = false := by
  have h : c ∈ (words p s).flatten := List.mem_flatten.2 ⟨w, hw, hc⟩
  rw [words_flatten, List.mem_filter] at h
  simpa using h.2

/-- A text without letters has no words. -/
theorem words_eq_nil_iff : words p s = [] ↔ ∀ c ∈ s, p c = true := by
  constructor
  · intro h
    have hf := words_flatten p s
    rw [h, List.flatten_nil, eq_comm, List.filter_eq_nil_iff] at hf
    intro c hc
    simpa using hf c hc
  · intro h
    have hf : (words p s).flatten = [] := by
      rw [words_flatten, List.filter_eq_nil_iff]
      intro c hc
      simp [h c hc]
    rw [List.flatten_eq_nil_iff] at hf
    refine List.eq_nil_iff_forall_not_mem.2 fun w hw => ne_nil_of_mem_words hw (hf w hw)

/-! ## (3) Joining texts -/

/-- **Cutting at a break.** A character of the class ends the words before it. -/
theorem words_append_break (hc : p c = true) (s t : Text) :
    words p (s ++ c :: t) = words p s ++ words p t := by
  induction s with
  | nil => simp [words_cons_break hc]
  | cons d s ih =>
    -- A letter is part of the next word if one follows directly, and a word of its own if not.
    by_cases hd : p d = true
    · rw [List.cons_append, words_cons_break hd, words_cons_break hd, ih]
    · have hd' : p d = false := by simpa using hd
      cases s with
      | nil =>
        rw [List.cons_append, List.nil_append, words_cons_cons_break hd' hc, words_singleton hd',
          words_cons_break hc]
        rfl
      | cons e s =>
        by_cases he : p e = true
        · rw [words_cons_cons_break hd' he, List.cons_append, List.cons_append,
            words_cons_cons_break hd' he, ← List.cons_append, ih]
          rfl
        · have he' : p e = false := by simpa using he
          obtain ⟨w, ws, h⟩ := exists_words_cons (p := p) (c := e) (s := s) he'
          rw [h] at ih
          rw [words_cons_cons_letter hd' he' h]
          exact words_cons_cons_letter hd' he' ih

/-- A text that ends in a break is followed by new words. -/
theorem words_append_of_getLast (h : ∀ c, s.getLast? = some c → p c = true) (t : Text) :
    words p (s ++ t) = words p s ++ words p t := by
  rcases List.eq_nil_or_concat s with rfl | ⟨s', c, rfl⟩
  · rfl
  · have hc : p c = true := h c (by simp)
    rw [List.concat_eq_append, List.append_assoc, List.singleton_append, words_append_break hc,
      words_append_break hc, words_nil, List.append_nil]

/-- Before a text that starts with a break the words end. -/
theorem words_append_of_head (h : ∀ c, t.head? = some c → p c = true) (s : Text) :
    words p (s ++ t) = words p s ++ words p t := by
  cases t with
  | nil => simp
  | cons c t =>
    have hc : p c = true := h c rfl
    rw [words_append_break hc, words_cons_break hc]

/-- **Gluing at two letters.** If no break stands where two texts are joined, the last word of the
first and the first word of the second are one word. -/
theorem words_append_glue (hs : ∃ c, s.getLast? = some c ∧ p c = false)
    (ht : ∃ c, t.head? = some c ∧ p c = false) (hws : words p s = ws ++ [w])
    (hvs : words p t = v :: vs) : words p (s ++ t) = ws ++ (w ++ v) :: vs := by
  induction s generalizing ws w with
  | nil => simp at hws
  | cons c s ih =>
    cases s with
    | nil =>
      have hc : p c = false := by simpa using hs
      obtain ⟨d, hd, hdp⟩ := ht
      obtain ⟨t', rfl⟩ : ∃ t', t = d :: t' := ⟨t.tail, by cases t <;> simp_all⟩
      rw [words_singleton hc] at hws
      obtain ⟨rfl, rfl⟩ : ws = [] ∧ w = [c] := by
        cases ws <;> simp_all
      exact words_cons_cons_letter hc hdp hvs
    | cons e s =>
      have hs' : ∃ c, (e :: s).getLast? = some c ∧ p c = false := by simpa using hs
      by_cases hc : p c = true
      · rw [words_cons_break hc] at hws
        rw [List.cons_append, words_cons_break hc]
        exact ih hs' hws
      · have hc' : p c = false := by simpa using hc
        by_cases he : p e = true
        · rw [words_cons_cons_break hc' he] at hws
          cases ws with
          | nil =>
            -- The text after `c` ends in a letter, so it has words.
            have hnil : words p (e :: s) = [] := by simpa using (List.cons.inj hws).2
            obtain ⟨a, ha, hap⟩ := hs'
            have := words_eq_nil_iff.1 hnil a (List.mem_of_getLast? ha)
            simp [hap] at this
          | cons u ws =>
            obtain ⟨rfl, hws'⟩ := List.cons.inj hws
            rw [List.cons_append, List.cons_append, words_cons_cons_break hc' he,
              ← List.cons_append, ih hs' hws']
            rfl
        · have he' : p e = false := by simpa using he
          obtain ⟨u, us, hu⟩ := exists_words_cons (p := p) (c := e) (s := s) he'
          rw [words_cons_cons_letter hc' he' hu] at hws
          cases ws with
          | nil =>
            obtain ⟨rfl, rfl⟩ : w = c :: e :: u ∧ us = [] := by
              have := List.cons.inj hws
              exact ⟨this.1.symm, this.2⟩
            have hlast : words p (e :: s) = [] ++ [e :: u] := hu
            exact words_cons_cons_letter hc' he' (ih hs' hlast)
          | cons x ws =>
            obtain ⟨rfl, rfl⟩ := List.cons.inj hws
            have hlast : words p (e :: s) = ((e :: u) :: ws) ++ [w] := hu
            exact words_cons_cons_letter hc' he' (ih hs' hlast)

end ChapterLayout.Text
