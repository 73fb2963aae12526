import ChapterLayout.Text.Lowercase
import ChapterLayout.Markup.Entity

/-! # Attributes

The attributes of a tag, in the order they are written. `Attribute.read` passes over every character
that cannot start a name, so no text is refused, and `Attribute.find?` gives the first value of a
name. -/

namespace ChapterLayout

/-- A name and a value; an attribute without a value has the empty one. -/
structure Attribute where
  name : Text
  value : Text
  deriving DecidableEq, Repr

namespace Attribute

/-- The first value of the attribute called `name`. -/
def find? (attributes : List Attribute) (name : Text) : Option Text :=
  (attributes.find? (·.name == name)).map (·.value)

/-- The first value of the attribute called `name`, unless it is empty. -/
def nonempty? (attributes : List Attribute) (name : Text) : Option Text :=
  (find? attributes name).filter (· != [])

/-! ## Reading -/

/-- Characters of an attribute name. -/
def isNameChar (c : Char) : Bool :=
  !(Text.isBlank c || c == '=' || c == '/' || c == '>' || c == '"' || c == '\x27')

/-- Characters of a value without quotes. -/
def isBareChar (c : Char) : Bool :=
  !(Text.isBlank c || c == '"' || c == '\x27' || c == '>')

/-- The value after a name, as it is written, and the rest: an equals sign with blanks around it,
and then a text in quotes or a run of bare characters. -/
def value? (s : Text) : Option (Text × Text) :=
  match Text.trimLeft Text.isBlank s with
  | '=' :: s =>
    match Text.trimLeft Text.isBlank s with
    | '"' :: s => Text.splitAtFirst ['"'] s
    | '\x27' :: s => Text.splitAtFirst ['\x27'] s
    | s => if (s.takeWhile isBareChar).isEmpty then none
      else some (s.takeWhile isBareChar, s.dropWhile isBareChar)
  | _ => none

/-- What stands behind a text that was found is no longer than the text searched. -/
theorem splitAtFirst_length {needle s before after : Text}
    (h : Text.splitAtFirst needle s = some (before, after)) : after.length ≤ s.length := by
  induction s generalizing before with
  | nil =>
    unfold Text.splitAtFirst at h
    split at h
    · simp only [Option.some.injEq, Prod.mk.injEq] at h; simp [← h.2]
    · simp at h
  | cons c s ih =>
    unfold Text.splitAtFirst at h
    split at h
    · simp only [Option.some.injEq, Prod.mk.injEq] at h
      rw [← h.2]; simp
    · simp only [Option.map_eq_some_iff, Prod.exists, Prod.mk.injEq] at h
      obtain ⟨_, _, h, _, rfl⟩ := h
      have := ih h
      simp only [List.length_cons]; omega

/-- Dropping characters makes no text longer. -/
theorem length_dropWhile_le (p : Char → Bool) (s : Text) : (s.dropWhile p).length ≤ s.length :=
  (List.dropWhile_sublist p).length_le

/-- What is left behind a value is no longer than what it was read from. -/
theorem value?_length {s v rest : Text} (h : value? s = some (v, rest)) :
    rest.length ≤ s.length := by
  unfold value? Text.trimLeft at h
  have outer := length_dropWhile_le Text.isBlank s
  split at h
  · next s' heq =>
    rw [heq, List.length_cons] at outer
    have inner := length_dropWhile_le Text.isBlank s'
    split at h
    · next heq' =>
      rw [heq', List.length_cons] at inner
      have := splitAtFirst_length h
      omega
    · next heq' =>
      rw [heq', List.length_cons] at inner
      have := splitAtFirst_length h
      omega
    · split at h
      · simp at h
      · simp only [Option.some.injEq, Prod.mk.injEq] at h
        rw [← h.2]
        have := length_dropWhile_le isBareChar (s'.dropWhile Text.isBlank)
        omega
  · simp at h

/-- What is left behind a name is shorter than what it was read from. -/
theorem length_afterName_lt {s s' : Text} {c : Char} {p : Char → Bool}
    (h : s.dropWhile p = c :: s') : (s'.dropWhile isNameChar).length < s.length := by
  have start := length_dropWhile_le p s
  rw [h, List.length_cons] at start
  exact Nat.lt_of_le_of_lt (length_dropWhile_le isNameChar s') start

/-- The attributes written in the text, with their values as they are written. -/
def readRaw (s : Text) : List Attribute :=
  match _h : s.dropWhile (fun c => !isNameChar c) with
  | [] => []
  | c :: s' =>
    let name := c :: s'.takeWhile isNameChar
    match _hv : value? (s'.dropWhile isNameChar) with
    | some (value, rest) => ⟨name, value⟩ :: readRaw rest
    | none => ⟨name, []⟩ :: readRaw (s'.dropWhile isNameChar)
termination_by s.length
decreasing_by
  · exact Nat.lt_of_le_of_lt (value?_length _hv) (length_afterName_lt _h)
  · exact length_afterName_lt _h

/-- The attributes written in the text: names in lowercase, references in values decoded. -/
def read (asciiOnly : Bool) (s : Text) : List Attribute :=
  (readRaw s).map fun a => ⟨Text.lower a.name, Entity.decode asciiOnly a.value⟩

end Attribute

end ChapterLayout
