import ChapterLayout.Text.Basic

/-! # Character references

A reference stands for one character: `&lt;` and its four companions by name, `&#65;` and `&#x41;`
by the number of the code point. `Entity.decode` replaces every reference in one pass, so that
decoded text is never read again, and leaves all else as it is. A number that is no Unicode scalar
value stands for the empty text.

A number is read through at most seven decimal or six hexadecimal digits after its leading zeros; a
longer one lies beyond the last code point, whatever its digits. -/

namespace ChapterLayout.Entity

/-- The text a numeric reference stands for: nothing if there is no value, the value is no scalar
value, or only ASCII is wanted and it is beyond ASCII. -/
def scalarText (asciiOnly : Bool) : Option Int → Text
  | none => []
  | some code =>
    if code < 0 ∨ 0x10FFFF < code then []
    else if 0xD800 ≤ code ∧ code < 0xE000 then []
    else if asciiOnly ∧ 127 < code then []
    else [Char.ofNat code.toNat]

/-- The value of a digit in bases up to sixteen. -/
def digitValue (c : Char) : Nat :=
  if c.isDigit then c.toNat - 48 else if c.isLower then c.toNat - 87 else c.toNat - 55

/-- The number that digits write in the given base. -/
def value (base : Nat) (digits : Text) : Nat :=
  digits.foldl (fun n c => n * base + digitValue c) 0

/-- The value of a numeric reference, or nothing if more than `limit` digits follow its leading
zeros. -/
def codePoint? (base limit : Nat) (digits : Text) : Option Int :=
  let significant := digits.dropWhile (· == '0')
  if limit < significant.length then none else some (value base significant)

/-- The digits of hexadecimal numbers. -/
def isHexDigit (c : Char) : Bool :=
  c.isDigit || ('a' ≤ c && c ≤ 'f') || ('A' ≤ c && c ≤ 'F')

/-- A numeric reference after its mark: its digits, which are of the class `isDigit`, and a
semicolon. Yields the text it stands for and the rest. -/
def numeric? (isDigit : Char → Bool) (base limit : Nat) (asciiOnly : Bool) (s : Text) :
    Option (Text × Text) :=
  match s.takeWhile isDigit, s.dropWhile isDigit with
  | [], _ => none
  | digits, ';' :: rest => some (scalarText asciiOnly (codePoint? base limit digits), rest)
  | _, _ => none

/-- The five references by name, each with its semicolon. -/
def named : List (Text × Char) :=
  [("lt;".toList, '<'), ("gt;".toList, '>'), ("amp;".toList, '&'), ("quot;".toList, '"'),
    ("apos;".toList, '\x27')]

/-- A reference by name after its ampersand, and the rest. -/
def named? (s : Text) : Option (Text × Text) :=
  (named.find? fun entry => entry.1.isPrefixOf s).map fun (name, c) => ([c], s.drop name.length)

/-- A reference after its ampersand: the text it stands for, and the rest. -/
def reference? (asciiOnly : Bool) : Text → Option (Text × Text)
  | '#' :: 'x' :: s => numeric? isHexDigit 16 6 asciiOnly s
  | '#' :: 'X' :: s => numeric? isHexDigit 16 6 asciiOnly s
  | '#' :: s => numeric? Char.isDigit 10 7 asciiOnly s
  | s => named? s

/-- What is left behind a numeric reference is shorter than what it was read from. -/
theorem numeric?_length {isDigit : Char → Bool} {base limit : Nat} {asciiOnly : Bool}
    {s t rest : Text} (h : numeric? isDigit base limit asciiOnly s = some (t, rest)) :
    rest.length < s.length := by
  unfold numeric? at h
  split at h
  · simp at h
  · next digits _ heq _ =>
    simp only [Option.some.injEq, Prod.mk.injEq] at h
    have := (List.dropWhile_sublist isDigit (l := s)).length_le
    rw [heq] at this
    rw [← h.2]
    exact this
  · simp at h

/-- What is left behind a reference is no longer than what it was read from. -/
theorem reference?_length {asciiOnly : Bool} {s t rest : Text}
    (h : reference? asciiOnly s = some (t, rest)) : rest.length ≤ s.length := by
  unfold reference? at h
  split at h
  · have := numeric?_length h
    simp only [List.length_cons]; omega
  · have := numeric?_length h
    simp only [List.length_cons]; omega
  · have := numeric?_length h
    simp only [List.length_cons]; omega
  · simp only [named?, Option.map_eq_some_iff, Prod.exists, Prod.mk.injEq] at h
    obtain ⟨_, _, _, _, rfl⟩ := h
    simp

/-- The text with every reference replaced by what it stands for. -/
def decode (asciiOnly : Bool) : Text → Text
  | [] => []
  | c :: s =>
    if c = '&' then
      match h : reference? asciiOnly s with
      | some (t, rest) =>
        have := reference?_length h
        t ++ decode asciiOnly rest
      | none => c :: decode asciiOnly s
    else c :: decode asciiOnly s
termination_by s => s.length

end ChapterLayout.Entity
