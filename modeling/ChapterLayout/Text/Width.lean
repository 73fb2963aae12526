import ChapterLayout.Text.Basic
import ChapterLayout.Text.Table.Wide
import ChapterLayout.Text.Table.ZeroWidth

/-! # Display width

The number of terminal columns a text takes. Marks that sit on another character, format characters
and controls take none, wide characters take two, and all others take one. A text of printable ASCII
characters alone is as wide as it is long, and its characters are not looked up.

* **`width_eq_foldr`** — looked up or not, the characters of a text take as many columns;
* **`width_append`** — so it is additive under `++`, although the parts of a text may be printable
  ASCII where the whole is not. -/

namespace ChapterLayout.Text

/-! ## Characters -/

/-- The columns one character takes. -/
def charWidth (c : Char) : Nat :=
  if zeroWidth.contains c.toNat then 0
  else if wide.contains c.toNat then 2
  else 1

/-- The printable characters of ASCII, from the space to the tilde. -/
def isPlain (c : Char) : Bool := 0x20 ≤ c.toNat && c.toNat < 0x7F

/-- The tables of widths hold no printable ASCII character. -/
theorem not_contains_of_plain :
    ∀ code < 0x7F, 0x20 ≤ code → zeroWidth.contains code = false ∧ wide.contains code = false := by
  decide +kernel

/-- A printable ASCII character takes one column. -/
theorem charWidth_of_isPlain {c : Char} (h : isPlain c = true) : charWidth c = 1 := by
  obtain ⟨hspace, hdelete⟩ : 0x20 ≤ c.toNat ∧ c.toNat < 0x7F := by simpa [isPlain] using h
  obtain ⟨hzero, hwide⟩ := not_contains_of_plain c.toNat hdelete hspace
  simp [charWidth, hzero, hwide]

/-- A space takes one column. -/
@[simp] theorem charWidth_space : charWidth ' ' = 1 := charWidth_of_isPlain rfl

/-! ## Texts -/

/-- The columns a text takes. -/
def width (s : Text) : Nat :=
  if s.all isPlain then s.length else s.foldr (fun c n => charWidth c + n) 0

/-- The characters of a printable ASCII text take as many columns as there are of them. -/
theorem foldr_charWidth_of_plain {s : Text} (h : s.all isPlain = true) :
    s.foldr (fun c n => charWidth c + n) 0 = s.length := by
  induction s with
  | nil => rfl
  | cons c s ih =>
    obtain ⟨hc, hs⟩ : isPlain c = true ∧ s.all isPlain = true := by simpa using h
    rw [List.foldr_cons, charWidth_of_isPlain hc, ih hs, List.length_cons, Nat.add_comm]

/-- **The two ways of measuring agree.** -/
theorem width_eq_foldr (s : Text) : width s = s.foldr (fun c n => charWidth c + n) 0 := by
  rw [width]
  split
  case isTrue hplain => exact (foldr_charWidth_of_plain hplain).symm
  case isFalse => rfl

/-- The empty text takes no column. -/
@[simp] theorem width_nil : width [] = 0 := rfl

/-- A character more takes its own columns. -/
@[simp] theorem width_cons (c : Char) (s : Text) : width (c :: s) = charWidth c + width s := by
  rw [width_eq_foldr, width_eq_foldr, List.foldr_cons]

/-- **Widths add up.** -/
theorem width_append (s t : Text) : width (s ++ t) = width s + width t := by
  induction s with
  | nil => simp
  | cons c s ih => rw [List.cons_append, width_cons, width_cons, ih, Nat.add_assoc]

/-- Spaces take as many columns as there are. -/
@[simp] theorem width_replicate_space (n : Nat) : width (List.replicate n ' ') = n := by
  induction n with
  | zero => rfl
  | succ n ih => rw [List.replicate_succ, width_cons, ih, charWidth_space, Nat.add_comm]

/-- The left padding that centres the text, without the blanks at its ends, in `columns` columns. -/
def centerPadding (s : Text) (columns : Int) : Int :=
  let taken : Int := width (trim s)
  if columns ≤ taken then 0 else (columns - taken) / 2

end ChapterLayout.Text
