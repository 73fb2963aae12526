import ChapterLayout.Proofs.Lists
import ChapterLayout.Proofs.Text.Collapse
import ChapterLayout.Proofs.Text.Lines
import ChapterLayout.Proofs.Text.Words

/-! # Texts of one line

A text without line feeds and carriage returns is one line, and so is everything that is made of
such texts:

* **`isOneLine_of_mem_words`**, **`isOneLine_squeeze`** — words are one line, and so is a text with
  one space between its words;
* **`splitOn_joinLines`** — lines that hold no line feed are the pieces of the text that joins
  them. -/

namespace ChapterLayout.Text

/-- Whether a character breaks a line. -/
def isLineBreak (c : Char) : Bool := c == '\n' || c == '\r'

/-- Whether no character of a text breaks a line. -/
def IsOneLine (s : Text) : Prop := ∀ c ∈ s, isLineBreak c = false

instance (s : Text) : Decidable s.IsOneLine := List.decidableBAll (isLineBreak · = false) s

variable {p : Char → Bool} {c : Char} {s t w : Text}

/-- A text is a line if it holds no line feed and no carriage return. -/
theorem isOneLine_iff : s.IsOneLine ↔ '\n' ∉ s ∧ '\r' ∉ s := by
  constructor
  · intro h
    exact ⟨fun hmem => absurd (h _ hmem) (by decide), fun hmem => absurd (h _ hmem) (by decide)⟩
  · rintro ⟨hfeed, hreturn⟩ c hc
    rw [isLineBreak, Bool.or_eq_false_iff, beq_eq_false_iff_ne, beq_eq_false_iff_ne]
    exact ⟨fun heq => hfeed (heq ▸ hc), fun heq => hreturn (heq ▸ hc)⟩

/-! ## (1) Texts in pieces -/

/-- The empty text is a line. -/
theorem isOneLine_nil : IsOneLine [] := fun _ h => absurd h List.not_mem_nil

/-- A line behind a line is a line. -/
theorem IsOneLine.append (hs : s.IsOneLine) (ht : t.IsOneLine) : (s ++ t).IsOneLine :=
  List.forall_mem_append.2 ⟨hs, ht⟩

/-- What is left of a line is a line. -/
theorem IsOneLine.subset (ht : t.IsOneLine) (h : s ⊆ t) : s.IsOneLine := fun c hc => ht c (h hc)

/-- A character repeated is a line if it does not break one. -/
theorem isOneLine_replicate (n : Nat) (hc : isLineBreak c = false) :
    IsOneLine (List.replicate n c) := by
  intro d hd
  rw [List.eq_of_mem_replicate hd]
  exact hc

/-- Spaces are a line. -/
theorem isOneLine_spaces (count : Int) : IsOneLine (spaces count) := isOneLine_replicate _ rfl

/-- A number is written in digits. -/
theorem isOneLine_ofNat (n : Nat) : IsOneLine (ofNat n) := by
  have hdigit : ∀ c ∈ ofNat n, c.isDigit = true := fun c hc =>
    Nat.isDigit_of_mem_toDigits (by decide) (by decide) hc
  exact isOneLine_iff.2
    ⟨fun h => absurd (hdigit _ h) (by decide), fun h => absurd (hdigit _ h) (by decide)⟩

/-- **Words are one line** if line breaks are in the class at which the text is cut. -/
theorem isOneLine_of_mem_words (hfeed : p '\n' = true) (hreturn : p '\r' = true)
    (hw : w ∈ words p s) : w.IsOneLine := by
  refine isOneLine_iff.2 ⟨fun h => ?_, fun h => ?_⟩
  · exact absurd (letter_of_mem_words hw h) (by simp [hfeed])
  · exact absurd (letter_of_mem_words hw h) (by simp [hreturn])

/-- **Words with one space between them** are one line. -/
theorem isOneLine_squeeze (s : Text) : IsOneLine (squeeze s) := by
  refine Lists.forall_mem_intercalate _ ?_ fun w hw => isOneLine_of_mem_words rfl rfl hw
  exact isOneLine_replicate 1 rfl

/-! ## (2) Joined lines -/

/-- A piece is part of the pieces joined. -/
theorem subset_intercalate {sep : Text} {pieces : List Text} (h : s ∈ pieces) :
    s ⊆ sep.intercalate pieces := by
  induction pieces with
  | nil => exact absurd h List.not_mem_nil
  | cons piece pieces ih =>
    cases pieces with
    | nil => simp [List.intercalate, List.mem_singleton.1 h]
    | cons next pieces =>
      have hjoined : sep.intercalate (piece :: next :: pieces) =
          piece ++ (sep ++ sep.intercalate (next :: pieces)) := by simp [List.intercalate]
      rw [hjoined]
      rcases List.mem_cons.1 h with rfl | h
      · exact List.subset_append_left _ _
      · exact fun c hc => List.mem_append_right _ (List.mem_append_right _ (ih h hc))

/-- A line is the first piece of the text that goes on with a line feed behind it. -/
theorem splitOn_append_cons (hs : '\n' ∉ s) (t : Text) :
    splitOn '\n' (s ++ '\n' :: t) = s :: splitOn '\n' t := by
  induction s with
  | nil => exact splitOn_cons_self
  | cons c s ih =>
    obtain ⟨hc, hs⟩ := not_or.1 (mt List.mem_cons.2 hs)
    exact splitOn_cons_of_ne (Ne.symm hc) (ih hs)

/-- A line is the only piece of itself. -/
theorem splitOn_of_not_mem (hs : '\n' ∉ s) : splitOn '\n' s = [s] := by
  induction s with
  | nil => rfl
  | cons c s ih =>
    obtain ⟨hc, hs⟩ := not_or.1 (mt List.mem_cons.2 hs)
    exact splitOn_cons_of_ne (Ne.symm hc) (ih hs)

/-- **Joined lines are read back,** if there are any. -/
theorem splitOn_joinLines {lines : List Line} (hne : lines ≠ []) (h : ∀ line ∈ lines, '\n' ∉ line) :
    splitOn '\n' (joinLines lines) = lines := by
  induction lines with
  | nil => exact absurd rfl hne
  | cons line lines ih =>
    obtain ⟨hline, hlines⟩ := List.forall_mem_cons.1 h
    cases lines with
    | nil => simpa [joinLines] using splitOn_of_not_mem hline
    | cons next lines =>
      rw [joinLines_cons_cons, splitOn_append_cons hline, ih (List.cons_ne_nil _ _) hlines]

end ChapterLayout.Text
