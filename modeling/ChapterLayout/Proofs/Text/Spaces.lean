import ChapterLayout.Proofs.Text.Words

/-! # Texts up to the width of their spaces

Spreading the words of a line changes the number of spaces between them and nothing else. Three
views of a text say what that means:

* **`Text.squash`** — the text with one space for every run of spaces;
* **`Text.gaps`** — the widths of the runs of spaces;
* **`Text.SpacedAlike`** — two texts that are built alike, but for the number of spaces where both
  have some. Such texts can be appended to each other, and `SpacedAlike.squash_eq` says that they
  are the same once squashed. -/

namespace ChapterLayout.Text

/-- The text with one space for every run of spaces. -/
def squash : Text → Text
  | [] => []
  | c :: s => if isSpace c && s.head? == some ' ' then squash s else c :: squash s

/-- The widths of the runs of spaces. -/
def gaps (s : Text) : List Nat := (words (fun c => !isSpace c) s).map List.length

/-- Whether a text is one word. -/
structure IsWord (s : Text) : Prop where
  ne_nil : s ≠ []
  letter : ∀ c ∈ s, isSpace c = false

/-- Two texts that differ at most in the number of spaces where both have some. -/
inductive SpacedAlike : Text → Text → Prop where
  /-- The empty texts. -/
  | nil : SpacedAlike [] []
  /-- The same character before both texts. -/
  | cons (c : Char) {s t : Text} (h : SpacedAlike s t) : SpacedAlike (c :: s) (c :: t)
  /-- At least one space before either text. -/
  | spaces (m n : Nat) {s t : Text} (h : SpacedAlike s t) :
    SpacedAlike (List.replicate (m + 1) ' ' ++ s) (List.replicate (n + 1) ' ' ++ t)

variable {p : Char → Bool} {s t u v w : Text} {n : Nat}

/-! ## (1) Words and gaps of a text in pieces -/

/-- A text of letters is one word. -/
theorem words_of_letters (hne : s ≠ []) (h : ∀ c ∈ s, p c = false) : words p s = [s] := by
  induction s with
  | nil => exact absurd rfl hne
  | cons c s ih =>
    have hc : p c = false := h c List.mem_cons_self
    cases s with
    | nil => exact words_singleton hc
    | cons d s =>
      have hd : p d = false := h d (List.mem_cons_of_mem c List.mem_cons_self)
      exact words_cons_cons_letter hc hd
        (ih (List.cons_ne_nil d s) fun e he => h e (List.mem_cons_of_mem c he))

/-- Spaces before a text add no words. -/
theorem words_spaces_append (n : Nat) (s : Text) :
    words isSpace (List.replicate n ' ' ++ s) = words isSpace s := by
  induction n with
  | zero => rfl
  | succ n ih => rw [List.replicate_succ, List.cons_append, words_cons_break rfl, ih]

/-- A word before a text is the first word, unless the text goes on with a letter. -/
theorem IsWord.words_append (hw : IsWord w) (h : ∀ c, s.head? = some c → isSpace c = true) :
    words isSpace (w ++ s) = w :: words isSpace s := by
  rw [words_append_of_head h, words_of_letters hw.ne_nil hw.letter]
  rfl

/-- A word before a text adds no gap. -/
theorem IsWord.gaps_append (hw : IsWord w) (s : Text) : gaps (w ++ s) = gaps s := by
  have hbreak : ∀ c ∈ w, (!isSpace c) = true := fun c hc => by rw [hw.letter c hc]; rfl
  have hnil : words (fun c => !isSpace c) w = [] := words_eq_nil_iff.2 hbreak
  rw [gaps, words_append_of_getLast fun c hc => hbreak c (List.mem_of_getLast? hc), hnil]
  rfl

/-- Spaces are one gap, if there are any. -/
theorem gaps_spaces (n : Nat) : gaps (List.replicate n ' ') = [n].filter (· ≠ 0) := by
  cases n with
  | zero => rfl
  | succ n =>
    have hbreak : ∀ c ∈ List.replicate (n + 1) ' ', (!isSpace c) = false := by
      intro c hc
      rw [List.eq_of_mem_replicate hc]
      rfl
    have hne : List.replicate (n + 1) ' ' ≠ [] := List.cons_ne_nil _ _
    rw [gaps, words_of_letters hne hbreak]
    simp

/-- The gap before a word comes before all others. -/
theorem IsWord.gaps_spaces_append (hw : IsWord w) (n : Nat) (s : Text) :
    gaps (List.replicate n ' ' ++ (w ++ s)) = [n].filter (· ≠ 0) ++ gaps s := by
  have hhead : ∀ c, (w ++ s).head? = some c → (!isSpace c) = true := by
    intro c hc
    rw [List.head?_append_of_ne_nil _ hw.ne_nil] at hc
    rw [hw.letter c (List.mem_of_head? hc)]
    rfl
  rw [gaps, words_append_of_head hhead, List.map_append, ← gaps, ← gaps, hw.gaps_append,
    gaps_spaces]

/-! ## (2) Texts that are spaced alike -/

/-- Spaces before a text are squashed to one. -/
theorem squash_spaces_append (n : Nat) (s : Text) :
    squash (List.replicate (n + 1) ' ' ++ s) = squash (' ' :: s) := by
  induction n with
  | zero => rfl
  | succ n ih =>
    have htwice : (isSpace ' ' && (List.replicate (n + 1) ' ' ++ s).head? == some ' ') = true := rfl
    rw [List.replicate_succ, List.cons_append, squash, if_pos htwice, ih]

namespace SpacedAlike

/-- A text is spaced like itself. -/
theorem refl (s : Text) : SpacedAlike s s := by
  induction s with
  | nil => exact .nil
  | cons c s ih => exact .cons c ih

/-- Being spaced alike is symmetric. -/
theorem symm (h : SpacedAlike s t) : SpacedAlike t s := by
  induction h with
  | nil => exact .nil
  | cons c _ ih => exact .cons c ih
  | spaces m n _ ih => exact .spaces n m ih

/-- Texts that are spaced alike may be joined. -/
theorem append (hst : SpacedAlike s t) (huv : SpacedAlike u v) :
    SpacedAlike (s ++ u) (t ++ v) := by
  induction hst with
  | nil => exact huv
  | cons c _ ih => exact .cons c ih
  | spaces m n _ ih =>
    rw [List.append_assoc, List.append_assoc]
    exact .spaces m n ih

/-- Texts that are spaced alike start with the same character. -/
theorem head?_eq (h : SpacedAlike s t) : s.head? = t.head? := by
  cases h with
  | nil => rfl
  | cons c _ => rfl
  | spaces m n _ => rfl

/-- **Texts that are spaced alike are the same once squashed.** -/
theorem squash_eq (h : SpacedAlike s t) : squash s = squash t := by
  induction h with
  | nil => rfl
  | cons c h ih => rw [squash, squash, h.head?_eq, ih]
  | spaces m n h ih =>
    rw [squash_spaces_append, squash_spaces_append, squash, squash, h.head?_eq, ih]

/-- Both texts start with spaces, or neither does. -/
theorem of_spaces {m n : Nat} (h : m = n ∨ 0 < m ∧ 0 < n) :
    SpacedAlike (List.replicate m ' ') (List.replicate n ' ') := by
  rcases h with rfl | ⟨hm, hn⟩
  · exact refl _
  · obtain ⟨m, rfl⟩ := Nat.exists_eq_add_one.2 hm
    obtain ⟨n, rfl⟩ := Nat.exists_eq_add_one.2 hn
    simpa using spaces m n nil

end SpacedAlike

end ChapterLayout.Text
