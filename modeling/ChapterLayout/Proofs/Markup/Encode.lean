import Mathlib.Data.List.TakeWhile
import ChapterLayout.Markup.Attribute

/-! # Text and attributes as they are written

Characters that mean something in markup are written as references by name, and attributes with
their values in quotes. Reading gives both back:

* **`Entity.decode_encode`** — decoding the references gives the text;
* **`Entity.not_mem_encode`** — a character that is written as a reference is not left over;
* **`QuotedAttribute.IsWellFormed.readRaw_written`** — an attribute is read with its value in quotes
  of either kind, whatever blanks stand around the equals sign;
* **`Attribute.read_written`** — attributes are read from the text they are written as. -/

namespace ChapterLayout

namespace Entity

variable {asciiOnly : Bool} {c : Char} {s t rest : Text} {marked : List Char}

/-- The reference to a character by its name, or the character if it has none. -/
def reference (c : Char) : Text :=
  match named.find? (·.2 == c) with
  | some (name, _) => '&' :: name
  | none => [c]

/-- The text with the marked characters written as references. -/
def encode (marked : List Char) (s : Text) : Text :=
  s.flatMap fun c => if marked.contains c then reference c else [c]

/-- Whether a text with the marked characters written as references can be read back: they have
references, and the ampersand is among them. -/
structure IsMarking (marked : List Char) : Prop where
  ampersand : '&' ∈ marked
  named : ∀ c ∈ marked, ∃ name, (name, c) ∈ named

/-! ## (1) References -/

/-- A character that is marked is written as the reference by its name. -/
theorem IsMarking.exists_reference (h : IsMarking marked) (hc : c ∈ marked) :
    ∃ name, (name, c) ∈ Entity.named ∧ reference c = '&' :: name := by
  obtain ⟨name, hname⟩ := h.named c hc
  cases hfind : Entity.named.find? (·.2 == c) with
  | none => exact absurd (List.find?_eq_none.1 hfind _ hname) (by simp)
  | some entry =>
    obtain ⟨name', d⟩ := entry
    have hd := List.find?_some hfind
    obtain rfl : d = c := by simpa using hd
    exact ⟨name', List.mem_of_find?_eq_some hfind, by rw [reference, hfind]⟩

/-- A reference by name is read. -/
theorem reference?_named {name : Text} (h : (name, c) ∈ named) (asciiOnly : Bool) (rest : Text) :
    reference? asciiOnly (name ++ rest) = some ([c], rest) := by
  simp only [named, List.mem_cons, Prod.mk.injEq, List.not_mem_nil, or_false] at h
  rcases h with ⟨rfl, rfl⟩ | ⟨rfl, rfl⟩ | ⟨rfl, rfl⟩ | ⟨rfl, rfl⟩ | ⟨rfl, rfl⟩
  all_goals simp [reference?, named?, named, List.isPrefixOf]

/-- A character that starts no reference stands for itself. -/
theorem decode_cons_letter (hc : c ≠ '&') :
    decode asciiOnly (c :: s) = c :: decode asciiOnly s := by
  rw [decode, if_neg hc]

/-- A reference is decoded as the text it stands for. -/
theorem decode_reference (h : reference? asciiOnly s = some (t, rest)) :
    decode asciiOnly ('&' :: s) = t ++ decode asciiOnly rest := by
  rw [decode, if_pos rfl]
  split
  · rename_i h'
    obtain ⟨rfl, rfl⟩ := Prod.mk.inj (Option.some.inj (h.symm.trans h'))
    rfl
  · rename_i h'
    rw [h] at h'
    cases h'

/-! ## (2) Text -/

/-- A text is written character by character. -/
theorem encode_cons (marked : List Char) (c : Char) (s : Text) :
    encode marked (c :: s) = (if c ∈ marked then reference c else [c]) ++ encode marked s := by
  simp [encode]

/-- **Decoding gives the text back.** -/
theorem decode_encode (h : IsMarking marked) (asciiOnly : Bool) (s : Text) :
    decode asciiOnly (encode marked s) = s := by
  induction s with
  | nil => rw [encode, List.flatMap_nil, decode]
  | cons c s ih =>
    rw [encode_cons]
    by_cases hc : c ∈ marked
    · obtain ⟨name, hname, href⟩ := h.exists_reference hc
      rw [if_pos hc, href, List.cons_append,
        decode_reference (reference?_named hname asciiOnly _), ih, List.singleton_append]
    · have hne : c ≠ '&' := fun hamp => hc (hamp ▸ h.ampersand)
      rw [if_neg hc, List.singleton_append, decode_cons_letter hne, ih]

/-- **A character that is written as a reference is not left over,** unless references hold it. -/
theorem not_mem_encode (h : IsMarking marked) (hc : c ∈ marked)
    (hname : ∀ entry ∈ named, c ∉ '&' :: entry.1) (s : Text) : c ∉ encode marked s := by
  induction s with
  | nil => simp [encode]
  | cons d s ih =>
    rw [encode_cons, List.mem_append, not_or]
    refine ⟨?_, ih⟩
    by_cases hd : d ∈ marked
    · obtain ⟨name, hmem, href⟩ := h.exists_reference hd
      rw [if_pos hd, href]
      exact hname _ hmem
    · rw [if_neg hd, List.mem_singleton]
      rintro rfl
      exact hd hc

/-- A text that is not empty is not written as nothing. -/
theorem encode_ne_nil (h : s ≠ []) (marked : List Char) : encode marked s ≠ [] := by
  obtain ⟨c, s, rfl⟩ := List.exists_cons_of_ne_nil h
  have href : reference c ≠ [] := by
    unfold reference
    split <;> simp
  rw [encode_cons]
  split <;> simp [href]

end Entity

/-! ## (3) Attributes in quotes -/

/-- An attribute as it may be written in a tag: behind blanks, with blanks around the equals sign,
and with its value between two quotes. -/
structure QuotedAttribute where
  /-- The blanks before the name. -/
  gap : Text
  name : Text
  /-- The blanks before the equals sign. -/
  before : Text
  /-- The blanks behind the equals sign. -/
  after : Text
  quote : Char
  value : Text
  deriving DecidableEq, Repr

namespace QuotedAttribute

variable {a : QuotedAttribute} {s v rest : Text}

/-- The text of the attribute in its tag. -/
def written (a : QuotedAttribute) : Text :=
  a.gap ++ (a.name ++ (a.before ++ '=' :: (a.after ++ a.quote :: (a.value ++ [a.quote]))))

/-- Whether the parts of the attribute are what they stand for. -/
structure IsWellFormed (a : QuotedAttribute) : Prop where
  gap_ne_nil : a.gap ≠ []
  gap : ∀ c ∈ a.gap, Text.isBlank c = true
  name_ne_nil : a.name ≠ []
  name : ∀ c ∈ a.name, Attribute.isNameChar c = true
  before : ∀ c ∈ a.before, Text.isBlank c = true
  after : ∀ c ∈ a.after, Text.isBlank c = true
  quote : a.quote = '"' ∨ a.quote = '\x27'
  value : a.quote ∉ a.value

instance : DecidablePred IsWellFormed := fun a =>
  have hall : ∀ {p : Char → Bool} {s : Text}, s.all p = true ↔ ∀ c ∈ s, p c = true :=
    List.all_eq_true
  decidable_of_iff (a.gap ≠ [] ∧ a.gap.all Text.isBlank = true ∧ a.name ≠ [] ∧
      a.name.all Attribute.isNameChar = true ∧ a.before.all Text.isBlank = true ∧
      a.after.all Text.isBlank = true ∧ (a.quote = '"' ∨ a.quote = '\x27') ∧ a.quote ∉ a.value)
    ⟨fun ⟨h₁, h₂, h₃, h₄, h₅, h₆, h₇, h₈⟩ =>
        ⟨h₁, hall.1 h₂, h₃, hall.1 h₄, hall.1 h₅, hall.1 h₆, h₇, h₈⟩,
      fun ⟨h₁, h₂, h₃, h₄, h₅, h₆, h₇, h₈⟩ =>
        ⟨h₁, hall.2 h₂, h₃, hall.2 h₄, hall.2 h₅, hall.2 h₆, h₇, h₈⟩⟩

/-- A text is split at the first occurrence of a character. -/
theorem splitAtFirst_append {c : Char} (h : c ∉ s) (rest : Text) :
    Text.splitAtFirst [c] (s ++ c :: rest) = some (s, rest) := by
  induction s with
  | nil => simp [Text.splitAtFirst, List.isPrefixOf]
  | cons d s ih =>
    obtain ⟨hd, hs⟩ := not_or.1 (List.mem_cons.not.1 h)
    rw [List.cons_append, Text.splitAtFirst, if_neg (by simpa [List.isPrefixOf] using hd), ih hs]
    rfl

/-- Blanks before a visible character are passed over. -/
theorem trimLeft_append {blanks : Text} (h : ∀ c ∈ blanks, Text.isBlank c = true) {c : Char}
    (hc : Text.isBlank c = false) (s : Text) :
    Text.trimLeft Text.isBlank (blanks ++ c :: s) = c :: s := by
  rw [Text.trimLeft, List.dropWhile_append_of_pos h, List.dropWhile_cons_of_neg (by simp [hc])]

/-- **A value in quotes** is read up to its own closing quote. -/
theorem IsWellFormed.value?_written (h : a.IsWellFormed) (rest : Text) :
    Attribute.value? (a.before ++ '=' :: (a.after ++ a.quote :: (a.value ++ a.quote :: rest))) =
      some (a.value, rest) := by
  have hsplit := splitAtFirst_append h.value rest
  have hequals := trimLeft_append h.before (by decide : Text.isBlank '=' = false)
  rcases h.quote with hquote | hquote
  · have hopen := trimLeft_append h.after (by decide : Text.isBlank '"' = false)
    rw [hquote] at hsplit
    simp only [Attribute.value?, hquote, hequals, hopen, hsplit]
  · have hopen := trimLeft_append h.after (by decide : Text.isBlank '\x27' = false)
    rw [hquote] at hsplit
    simp only [Attribute.value?, hquote, hequals, hopen, hsplit]

/-- Between two attributes, no character is a part of a name. -/
theorem isNameChar_of_isBlank {c : Char} (h : Text.isBlank c = true) :
    Attribute.isNameChar c = false := by
  simp [Attribute.isNameChar, h]

/-- The name of an attribute ends before its equals sign, or before the blanks there. -/
theorem IsWellFormed.head?_before (h : a.IsWellFormed) (s : Text) :
    (a.before ++ '=' :: s).head?.any Attribute.isNameChar = false := by
  cases hbefore : a.before with
  | nil => rfl
  | cons c blanks =>
    exact isNameChar_of_isBlank (h.before c (hbefore ▸ List.mem_cons_self))

/-- What belongs to no name is passed over before a name, which is read with its value. -/
theorem readRaw_name {gap name value : Text} (hgap : ∀ c ∈ gap, Attribute.isNameChar c = false)
    (hne : name ≠ []) (hname : ∀ c ∈ name, Attribute.isNameChar c = true)
    (hs : s.head?.any Attribute.isNameChar = false)
    (hvalue : Attribute.value? s = some (value, rest)) :
    Attribute.readRaw (gap ++ (name ++ s)) = ⟨name, value⟩ :: Attribute.readRaw rest := by
  obtain ⟨c, n, rfl⟩ := List.exists_cons_of_ne_nil hne
  obtain ⟨hc, hn⟩ := List.forall_mem_cons.1 hname
  have hskip : (gap ++ (c :: n ++ s)).dropWhile (fun c => !Attribute.isNameChar c) =
      c :: (n ++ s) := by
    rw [List.dropWhile_append_of_pos (by simpa using hgap), List.cons_append,
      List.dropWhile_cons_of_neg (by simp [hc])]
  -- The name ends where what follows it starts.
  have hends : s.takeWhile Attribute.isNameChar = [] ∧ s.dropWhile Attribute.isNameChar = s := by
    cases s with
    | nil => exact ⟨rfl, rfl⟩
    | cons d s =>
      have hd : ¬Attribute.isNameChar d = true := by simpa using hs
      exact ⟨List.takeWhile_cons_of_neg hd, List.dropWhile_cons_of_neg hd⟩
  have htake : (n ++ s).takeWhile Attribute.isNameChar = n := by
    rw [List.takeWhile_append_of_pos hn, hends.1, List.append_nil]
  have hdrop : (n ++ s).dropWhile Attribute.isNameChar = s := by
    rw [List.dropWhile_append_of_pos hn, hends.2]
  -- Reading skips the gap, takes the name, and then reads the value.
  rw [Attribute.readRaw]
  split
  · rename_i h
    rw [hskip] at h
    cases h
  · rename_i c' s' h
    rw [hskip] at h
    obtain ⟨rfl, rfl⟩ := List.cons.inj h
    rw [htake]
    split
    · rename_i v' rest' hv
      rw [hdrop, hvalue] at hv
      obtain ⟨rfl, rfl⟩ := Prod.mk.inj (Option.some.inj hv)
      rfl
    · rename_i hv
      rw [hdrop, hvalue] at hv
      cases hv

/-- **An attribute in quotes is read** before what follows it. -/
theorem IsWellFormed.readRaw_written (h : a.IsWellFormed) (rest : Text) :
    Attribute.readRaw (a.written ++ rest) = ⟨a.name, a.value⟩ :: Attribute.readRaw rest := by
  have hread := readRaw_name (fun c hc => isNameChar_of_isBlank (h.gap c hc)) h.name_ne_nil h.name
    (h.head?_before _) (h.value?_written rest)
  simpa [written] using hread

end QuotedAttribute

/-! ## (4) Attributes -/

namespace Attribute

variable {a : Attribute} {attributes : List Attribute} {s v rest : Text}

/-- The characters of a value that are written as references. -/
def marks : List Char := ['&', '"']

/-- Every character that has to be marked in a value has a reference. -/
theorem isMarking_marks : Entity.IsMarking marks := ⟨by simp [marks], by simp [marks, Entity.named]⟩

/-- An attribute as it is written in a tag, with its value in quotes. -/
def written (a : Attribute) : Text :=
  ' ' :: (a.name ++ '=' :: '"' :: (Entity.encode marks a.value ++ ['"']))

/-- Whether an attribute is read as it is written: its name is not empty, has no characters that end
a name, and no capital letters. -/
structure IsCanonical (a : Attribute) : Prop where
  ne_nil : a.name ≠ []
  nameChar : a.name.all isNameChar = true
  lower : Text.lower a.name = a.name

instance : DecidablePred IsCanonical := fun a =>
  decidable_of_iff (a.name ≠ [] ∧ a.name.all isNameChar = true ∧ Text.lower a.name = a.name)
    ⟨fun h => ⟨h.1, h.2.1, h.2.2⟩, fun h => ⟨h.1, h.2, h.3⟩⟩

/-- No quote is left over in a value. -/
theorem quote_not_mem_encode (v : Text) : '"' ∉ Entity.encode marks v :=
  Entity.not_mem_encode isMarking_marks (by simp [marks]) (by decide) v

/-- The parts of an attribute as it is written. -/
def quoted (a : Attribute) : QuotedAttribute :=
  ⟨[' '], a.name, [], [], '"', Entity.encode marks a.value⟩

/-- An attribute is written as its parts are. -/
theorem written_quoted (a : Attribute) : a.quoted.written = a.written := by
  simp [QuotedAttribute.written, quoted, written]

/-- The parts of a canonical attribute are well-formed. -/
theorem IsCanonical.quoted (h : a.IsCanonical) : a.quoted.IsWellFormed where
  gap_ne_nil := List.cons_ne_nil _ _
  gap := List.forall_mem_singleton.2 (by decide)
  name_ne_nil := h.ne_nil
  name := List.all_eq_true.1 h.nameChar
  before := by simp [Attribute.quoted]
  after := by simp [Attribute.quoted]
  quote := .inl rfl
  value := quote_not_mem_encode a.value

/-- **An attribute is read** before what follows it. -/
theorem readRaw_written (h : a.IsCanonical) (rest : Text) :
    readRaw (a.written ++ rest) = ⟨a.name, Entity.encode marks a.value⟩ :: readRaw rest := by
  rw [← written_quoted, h.quoted.readRaw_written]
  rfl

/-- **Attributes are read from the text they are written as.** -/
theorem read_written (h : ∀ a ∈ attributes, a.IsCanonical) (asciiOnly : Bool) :
    read asciiOnly (attributes.flatMap written) = attributes := by
  induction attributes with
  | nil =>
    rw [read, List.flatMap_nil, readRaw]
    rfl
  | cons a attributes ih =>
    obtain ⟨ha, hattributes⟩ := List.forall_mem_cons.1 h
    have hrest := ih hattributes
    rw [read] at hrest ⊢
    rw [List.flatMap_cons, readRaw_written ha, List.map_cons, hrest, ha.lower,
      Entity.decode_encode isMarking_marks]

end Attribute

end ChapterLayout
