import ChapterLayout.Surface.Escapes

/-! # Reading styled text

Styled text is read as characters in appearances. What is relied on of the codes in it is that they
can be read, and not what they look like:

* **`Terminal.Reads`** — a reader sees the characters of a text one after the other, the codes of an
  appearance switch that appearance on, and the reset ends it;
* **`Terminal.Reads.paint`** — so it sees a piece of text in the appearance it was given;
* **`Escapes.reads`** — the escape sequences of common terminals are codes that can be read. -/

namespace ChapterLayout

/-- A character with its appearance. -/
abbrev StyledChar := Char × Appearance

/-- The characters of a text in one appearance. -/
def styled (s : Text) (a : Appearance) : List StyledChar := s.map fun c => (c, a)

/-- The characters of joined texts are those of both. -/
theorem styled_append (s t : Text) (a : Appearance) :
    styled (s ++ t) a = styled s a ++ styled t a :=
  List.map_append

/-! ## (1) Readers of codes -/

/-- Whether `see` reads the given codes, where `see a s` are the characters it sees in the text `s`
if the appearance `a` is switched on. Characters other than escapes are seen as they are, the codes
of an appearance switch it on, and the reset switches back to the bare appearance. -/
structure Terminal.Reads (codes : Appearance → Text) (reset : Text)
    (see : Appearance → Text → List StyledChar) : Prop where
  nil : ∀ a, see a [] = []
  char : ∀ a c s, c ≠ '\x1b' → see a (c :: s) = (c, a) :: see a s
  codes : ∀ a s, a ≠ .bare → see .bare (codes a ++ s) = see a s
  reset : ∀ a s, see a (reset ++ s) = see .bare s

namespace Terminal.Reads

variable {codes : Appearance → Text} {reset : Text} {see : Appearance → Text → List StyledChar}
  {style : Styler} {s : Text}

/-- A text without escapes is seen in the appearance that is switched on. -/
theorem append (h : Reads codes reset see) (a : Appearance) (hs : '\x1b' ∉ s) (t : Text) :
    see a (s ++ t) = styled s a ++ see a t := by
  induction s with
  | nil => rfl
  | cons c s ih =>
    rw [List.mem_cons, not_or] at hs
    rw [List.cons_append, h.char a c (s ++ t) (Ne.symm hs.1), ih hs.2]
    rfl

/-- **A piece of text in an appearance** is seen in that appearance, and what follows it is seen as
without it. -/
theorem paint (h : Reads codes reset see)
    (hstyle : ∀ a s, a ≠ .bare → style a s = codes a ++ s ++ reset) (a : Appearance)
    (hs : '\x1b' ∉ s) (t : Text) :
    see .bare (style.paint a s ++ t) = styled s a ++ see .bare t := by
  rw [Styler.paint]
  split
  · rename_i hbare
    rw [h.append .bare hs]
    rw [Bool.or_eq_true, List.isEmpty_iff, beq_iff_eq] at hbare
    rcases hbare with rfl | rfl
    · rfl
    · rfl
  · rename_i hbare
    have ha : a ≠ .bare := by
      rintro rfl
      simp at hbare
    rw [hstyle a s ha, List.append_assoc, List.append_assoc, h.codes a _ ha, h.append a hs,
      h.reset]

end Terminal.Reads

/-! ## (2) Escape sequences -/

namespace Escapes

/-- The appearance after a parameter of an escape sequence: zero resets all attributes, and every
other one switches an attribute on. -/
def switch (a : Appearance) (parameter : Nat) : Appearance :=
  if parameter = 0 then .bare
  else if parameter = 1 then { a with bold := true }
  else if parameter = 2 then { a with dim := true }
  else if parameter = 3 then { a with italic := true }
  else if parameter = 4 then { a with underline := true }
  else if parameter = 7 then { a with reverse := true }
  else if parameter = 9 then { a with strikethrough := true }
  else if 30 ≤ parameter ∧ parameter < 38 then { a with foreground := Color.all[parameter - 30]? }
  else if 40 ≤ parameter ∧ parameter < 48 then { a with background := Color.all[parameter - 40]? }
  else a

/-- What a reader of escape sequences is reading. -/
inductive Reading where
  | text
  /-- The escape of a sequence was read. -/
  | escape
  /-- The digits so far of a parameter were read. -/
  | parameter (n : Nat)

/-- The characters of a text with escape sequences in the appearances that the sequences give
them. -/
def readFrom : Reading → (pen : Appearance) → Text → List StyledChar
  | _, _, [] => []
  | .text, pen, c :: s =>
    if c = '\x1b' then readFrom .escape pen s else (c, pen) :: readFrom .text pen s
  | .escape, pen, c :: s =>
    if c = '[' then readFrom (.parameter 0) pen s else readFrom .text pen s
  | .parameter n, pen, c :: s =>
    if c = 'm' then readFrom .text (switch pen n) s
    else readFrom (.parameter (10 * n + (c.toNat - '0'.toNat))) pen s

/-- The digits of a parameter are read one after the other. -/
theorem readFrom_digits {digits : Text} (h : 'm' ∉ digits) (n : Nat) (pen : Appearance) (t : Text) :
    readFrom (.parameter n) pen (digits ++ 'm' :: t) = readFrom .text
      (switch pen (digits.foldl (fun n c => 10 * n + (c.toNat - '0'.toNat)) n)) t := by
  induction digits generalizing n with
  | nil => rw [List.nil_append, readFrom, if_pos rfl, List.foldl_nil]
  | cons c digits ih =>
    rw [List.mem_cons, not_or] at h
    rw [List.cons_append, readFrom, if_neg (Ne.symm h.1), ih h.2, List.foldl_cons]

/-- An escape sequence with a parameter in use switches the appearance. -/
theorem readFrom_control {n : Nat} (h : n < 48) (pen : Appearance) (t : Text) :
    readFrom .text pen (control n ++ t) = readFrom .text (switch pen n) t := by
  have hdigits : ∀ n < 48, 'm' ∉ Text.ofNat n ∧
      (Text.ofNat n).foldl (fun n c => 10 * n + (c.toNat - '0'.toNat)) 0 = n := by decide +kernel
  obtain ⟨hm, hvalue⟩ := hdigits n h
  have hparts : control n ++ t = '\x1b' :: '[' :: (Text.ofNat n ++ 'm' :: t) := by simp [control]
  rw [hparts, readFrom, if_pos rfl, readFrom, if_pos rfl, readFrom_digits hm, hvalue]

/-- Escape sequences one after the other switch the appearance one after the other. -/
theorem readFrom_controls {parameters : List Nat} (h : ∀ n ∈ parameters, n < 48)
    (pen : Appearance) (t : Text) : readFrom .text pen (parameters.flatMap control ++ t) =
      readFrom .text (parameters.foldl switch pen) t := by
  induction parameters generalizing pen with
  | nil => rfl
  | cons n parameters ih =>
    obtain ⟨hn, hrest⟩ := List.forall_mem_cons.1 h
    rw [List.flatMap_cons, List.append_assoc, readFrom_control hn, ih hrest, List.foldl_cons]

/-- The parameters of an appearance are in use. -/
theorem parameters_lt (a : Appearance) : ∀ n ∈ parameters a, n < 48 := by
  have hnumber : ∀ c : Color, colorNumber c < 8 := by
    intro c
    cases c <;> decide
  simp only [parameters, List.mem_append, Option.mem_toList, Option.map_eq_some_iff]
  rintro n (((((((⟨c, -, rfl⟩ | ⟨c, -, rfl⟩) | h) | h) | h) | h) | h) | h)
  · have := hnumber c
    omega
  · have := hnumber c
    omega
  all_goals
    split at h
    · rw [List.mem_singleton] at h
      omega
    · simp at h

/-- **The parameters of an appearance** switch on all of its attributes. -/
theorem foldl_switch_parameters (a : Appearance) : (parameters a).foldl switch .bare = a := by
  have hforeground : ∀ (c : Color) (a : Appearance),
      switch a (30 + colorNumber c) = { a with foreground := some c } := by
    intro c a
    cases c <;> rfl
  have hbackground : ∀ (c : Color) (a : Appearance),
      switch a (40 + colorNumber c) = { a with background := some c } := by
    intro c a
    cases c <;> rfl
  obtain ⟨foreground, background, bold, dim, underline, italic, reverse, strikethrough⟩ := a
  cases foreground <;> cases background <;>
    simp only [parameters, Option.map_none, Option.map_some, Option.toList_none,
      Option.toList_some, List.foldl_append, List.foldl_cons, List.foldl_nil, hforeground,
      hbackground] <;>
    cases bold <;> cases dim <;> cases underline <;> cases italic <;> cases reverse <;>
    cases strikethrough <;> rfl

/-- **Escape sequences are codes** that can be read. -/
theorem reads : Terminal.Reads codes reset (readFrom .text) where
  nil _ := rfl
  char a c s hc := by rw [readFrom, if_neg hc]
  codes a s _ := by rw [codes, readFrom_controls (parameters_lt a), foldl_switch_parameters]
  reset a s := readFrom_control (by decide) a s

end Escapes

end ChapterLayout
