import ChapterLayout.Proofs.Markup.ReadBack

/-! # Brackets in quoted values

A tag ends at its first closing bracket outside quotes. The end of the tag and the attributes of
the tag are found by two scans, and each of them decides by itself which quotes are around a value.
Behind the equals sign, the scan for the attributes passes over every blank, and the scan for the
end over spaces, tabs and line ends only. A quote behind any other blank is not seen as the start of
a value, so the brackets and the quotes in such a value count:

* **`Segment.tagEnd_append`** — text without brackets in which no quote starts a value ends no tag;
* **`Segment.EndsTag.quotedAttribute`** — an attribute whose value is seen, or would not end a tag
  by itself, does not end its tag;
* **`Token.scan_quoted`** — a tag with such attributes is read as one token that has all of them;
* **`Segment.tagInside?_hidden`** — a bracket in a value that is not seen ends the tag. -/

namespace ChapterLayout

/-! ## (1) Quotes in text -/

namespace Segment

variable {s t inside rest : Text} {c last : Char}

/-- Whether a quote in a text starts a value: the last visible character before it is an equals
sign. The character before the text is `last`. -/
def startsValue : (last : Char) → Text → Bool
  | _, [] => false
  | last, c :: s =>
    ((c == '"' || c == '\x27') && last == '=') || startsValue (lastVisible last c) s

/-- The text before the end of a tag, with more text before it. -/
def TagEnd.append (t : Text) (e : TagEnd) : TagEnd := t.foldr TagEnd.cons e

/-- A text put before the inside of a tag leaves what follows the tag. -/
theorem TagEnd.append_closed (t inside rest : Text) :
    (TagEnd.closed inside rest).append t = .closed (t ++ inside) rest := by
  induction t with
  | nil => rfl
  | cons c t ih =>
    have hcons : (TagEnd.closed inside rest).append (c :: t) =
      ((TagEnd.closed inside rest).append t).cons c := rfl
    rw [hcons, ih]
    rfl

/-- **Text without brackets in which no quote starts a value** ends no tag. -/
theorem tagEnd_append (hbracket : '>' ∉ t) (hquote : startsValue last t = false) (s : Text) :
    tagEnd none last (t ++ s) = (tagEnd none (t.foldl lastVisible last) s).append t := by
  induction t generalizing last with
  | nil => rfl
  | cons c t ih =>
    -- Neither the bracket nor a quote stops the scan here, so it passes over the character.
    obtain ⟨hc, ht⟩ := not_or.1 (List.mem_cons.not.1 hbracket)
    rw [startsValue, Bool.or_eq_false_iff] at hquote
    rw [List.cons_append, tagEnd, if_neg (by simpa using Ne.symm hc)]
    simp only [hquote.1, Bool.false_eq_true, ↓reduceIte]
    rw [ih ht hquote.2]
    rfl

/-- A quote starts a value in the first of two texts or in the second. -/
theorem startsValue_append (last : Char) (s t : Text) :
    startsValue last (s ++ t) =
      (startsValue last s || startsValue (s.foldl lastVisible last) t) := by
  induction s generalizing last with
  | nil => rfl
  | cons c s ih =>
    rw [List.cons_append, startsValue, ih, startsValue, Bool.or_assoc, List.foldl_cons]

/-- No quote starts a value where there are no quotes. -/
theorem startsValue_eq_false (h : ∀ c ∈ s, c ≠ '"' ∧ c ≠ '\x27') (last : Char) :
    startsValue last s = false := by
  induction s generalizing last with
  | nil => rfl
  | cons c s ih =>
    obtain ⟨hc, hs⟩ := List.forall_mem_cons.1 h
    simp [startsValue, hc, ih hs]

/-! ## (2) Blanks -/

/-- The blanks that the end of a tag is looked for behind. -/
def seenBlanks : List Char := [' ', '\t', '\r', '\n']

/-- The last visible character is the new one, unless it is a blank that is looked behind. -/
theorem lastVisible_eq_ite (last c : Char) :
    lastVisible last c = if c ∈ seenBlanks then last else c := by
  simp [lastVisible, seenBlanks, or_assoc]

/-- Blanks that are looked behind leave the last visible character as it is. -/
theorem foldl_lastVisible_of_seen (h : ∀ c ∈ s, c ∈ seenBlanks) (last : Char) :
    s.foldl lastVisible last = last := by
  induction s with
  | nil => rfl
  | cons c s ih =>
    obtain ⟨hc, hs⟩ := List.forall_mem_cons.1 h
    rw [List.foldl_cons, lastVisible_eq_ite, if_pos hc, ih hs]

/-- A character that is seen hides those before it. -/
theorem foldl_lastVisible_mem (h : ∃ c ∈ s, c ∉ seenBlanks) (last : Char) :
    s.foldl lastVisible last ∈ s := by
  induction s generalizing last with
  | nil => simp at h
  | cons c s ih =>
    by_cases hs : ∃ d ∈ s, d ∉ seenBlanks
    · exact List.mem_cons_of_mem _ (ih hs _)
    · have hc : c ∉ seenBlanks := by simpa [hs] using h
      push Not at hs
      rw [List.foldl_cons, foldl_lastVisible_of_seen hs, lastVisible_eq_ite, if_neg hc]
      exact List.mem_cons_self

/-- Blanks are no brackets and no quotes. -/
theorem ne_of_isBlank (h : Text.isBlank c = true) : c ≠ '>' ∧ c ≠ '"' ∧ c ≠ '\x27' := by
  refine ⟨?_, ?_, ?_⟩
  all_goals
    rintro rfl
    exact absurd h (by decide)

end Segment

/-- No blank belongs to the name of a tag. -/
theorem Token.isTagChar_of_isBlank {c : Char} (h : Text.isBlank c = true) :
    Token.isTagChar c = false := by
  have hblanks : ∀ n ∈ List.range' 0x09 5 ++ List.range' 0x1C 5 ++ List.range' 0x2000 11 ++
      [0x85, 0xA0, 0x1680, 0x2028, 0x2029, 0x202F, 0x205F, 0x3000],
      Token.isTagChar (Char.ofNat n) = false := by decide +kernel
  -- There are few blanks, and each of them is a number in one of the ranges of `isBlank`.
  rw [← Char.ofNat_toNat c]
  refine hblanks c.toNat ?_
  simp only [Text.isBlank, Bool.or_eq_true, Bool.and_eq_true, decide_eq_true_eq,
    beq_iff_eq] at h
  simp only [List.mem_append, List.mem_range'_1, List.mem_cons, List.not_mem_nil, or_false]
  omega

/-! ## (3) Attributes -/

namespace QuotedAttribute

variable {a : QuotedAttribute} {inside rest s : Text}

/-- Whether the value of the attribute does not end its tag: all blanks between the equals sign and
the value are seen, or the value has no brackets and no quote that starts another value. -/
def IsSeen (a : QuotedAttribute) : Prop :=
  (∀ c ∈ a.after, c ∈ Segment.seenBlanks) ∨
    ('>' ∉ a.value ∧ Segment.startsValue a.quote (a.value ++ [a.quote]) = false)

instance : DecidablePred IsSeen := fun a =>
  have hall : a.after.all (Segment.seenBlanks.contains ·) = true ↔
      ∀ c ∈ a.after, c ∈ Segment.seenBlanks := by simp
  decidable_of_iff (a.after.all (Segment.seenBlanks.contains ·) = true ∨
    ('>' ∉ a.value ∧ Segment.startsValue a.quote (a.value ++ [a.quote]) = false))
    (or_congr_left hall)

/-- A quote is no bracket, and it is seen. -/
theorem IsWellFormed.quote_ne (h : a.IsWellFormed) :
    a.quote ≠ '>' ∧ a.quote ∉ Segment.seenBlanks := by
  rcases h.quote with hquote | hquote
  all_goals
    rw [hquote]
    decide

/-- Behind a blank that is not seen, the quote of a value starts no value. -/
theorem IsWellFormed.startsValue_hidden (h : a.IsWellFormed)
    (hhidden : ∃ c ∈ a.after, c ∉ Segment.seenBlanks) (s : Text) :
    Segment.startsValue '=' (a.after ++ a.quote :: s) = Segment.startsValue a.quote s := by
  -- The hidden blank is the last visible character, and it is no equals sign.
  have hlast : a.after.foldl Segment.lastVisible '=' ≠ '=' := by
    intro hequals
    have hmem := h.after _ (Segment.foldl_lastVisible_mem hhidden '=')
    rw [hequals] at hmem
    exact absurd hmem (by decide)
  have hquote : Segment.lastVisible (a.after.foldl Segment.lastVisible '=') a.quote = a.quote := by
    rw [Segment.lastVisible_eq_ite, if_neg h.quote_ne.2]
  have hafter := Segment.startsValue_eq_false
    (fun c hc => (Segment.ne_of_isBlank (h.after c hc)).2) '='
  rw [Segment.startsValue_append, hafter, Segment.startsValue, hquote]
  simp [hlast]

/-- **A value that is seen** is passed over with its quotes. -/
theorem IsWellFormed.tagEnd_seen (h : a.IsWellFormed)
    (hseen : ∀ c ∈ a.after, c ∈ Segment.seenBlanks) (hend : Segment.EndsTag s inside rest) :
    Segment.tagEnd none '=' (a.after ++ a.quote :: (a.value ++ a.quote :: s)) =
      .closed (a.after ++ a.quote :: (a.value ++ a.quote :: inside)) rest := by
  have hblank := fun c hc => Segment.ne_of_isBlank (h.after c hc)
  have hvalue : Segment.tagEnd none '=' (a.quote :: (a.value ++ a.quote :: s)) =
      .closed (a.quote :: (a.value ++ a.quote :: inside)) rest := by
    rw [Segment.tagEnd]
    rcases h.quote with hquote | hquote
    all_goals
      have hquoted := hend.quoted h.value
      rw [hquote] at hquoted ⊢
      simp [hquoted, Segment.TagEnd.cons]
  rw [Segment.tagEnd_append (fun hmem => (hblank _ hmem).1 rfl)
    (Segment.startsValue_eq_false (fun c hc => (hblank c hc).2) _),
    Segment.foldl_lastVisible_of_seen hseen, hvalue, Segment.TagEnd.append_closed]

/-- **A value that is not seen** is passed over as text. -/
theorem IsWellFormed.tagEnd_hidden (h : a.IsWellFormed)
    (hhidden : ∃ c ∈ a.after, c ∉ Segment.seenBlanks) {v : Text} (hbracket : '>' ∉ v)
    (hquote : Segment.startsValue a.quote v = false) (s : Text) :
    ∃ last, Segment.tagEnd none '=' (a.after ++ a.quote :: (v ++ s)) =
      (Segment.tagEnd none last s).append (a.after ++ a.quote :: v) := by
  have hmem : '>' ∉ a.after ++ a.quote :: v := by
    have hafter : '>' ∉ a.after := fun hmem => (Segment.ne_of_isBlank (h.after _ hmem)).1 rfl
    simp [hafter, h.quote_ne.1.symm, hbracket]
  refine ⟨(a.after ++ a.quote :: v).foldl Segment.lastVisible '=', ?_⟩
  rw [← Segment.tagEnd_append hmem ((h.startsValue_hidden hhidden v).trans hquote)]
  simp

/-- The text of an attribute up to its equals sign has no brackets and no quotes. -/
theorem IsWellFormed.ne_of_mem (h : a.IsWellFormed) :
    ∀ c ∈ a.gap ++ (a.name ++ a.before), c ≠ '>' ∧ c ≠ '"' ∧ c ≠ '\x27' := by
  intro c hc
  rw [List.mem_append, List.mem_append] at hc
  rcases hc with hgap | hname | hbefore
  · exact Segment.ne_of_isBlank (h.gap c hgap)
  · exact Segment.ne_of_isNameChar (h.name c hname)
  · exact Segment.ne_of_isBlank (h.before c hbefore)

end QuotedAttribute

namespace Segment

variable {a : QuotedAttribute} {attributes : List QuotedAttribute} {s inside rest : Text}

/-- The character after an equals sign is the first one of a value. -/
theorem tagEnd_equals (last : Char) (s : Text) :
    tagEnd none last ('=' :: s) = (tagEnd none '=' s).cons '=' := by
  simp [tagEnd, lastVisible]

/-- **An attribute whose value is seen,** or would not end a tag by itself, does not end its tag. -/
theorem EndsTag.quotedAttribute (h : EndsTag s inside rest) (ha : a.IsWellFormed)
    (hseen : a.IsSeen) : EndsTag (a.written ++ s) (a.written ++ inside) rest := by
  have hvalue : tagEnd none '=' (a.after ++ a.quote :: (a.value ++ a.quote :: s)) =
      .closed (a.after ++ a.quote :: (a.value ++ a.quote :: inside)) rest := by
    by_cases hafter : ∀ c ∈ a.after, c ∈ seenBlanks
    · exact ha.tagEnd_seen hafter h
    · -- The value is read as text with its second quote, which starts no value either.
      obtain ⟨hbracket, hquote⟩ := hseen.resolve_left hafter
      obtain ⟨last, hend⟩ := ha.tagEnd_hidden (by simpa using hafter)
        (v := a.value ++ [a.quote]) (by simp [hbracket, ha.quote_ne.1.symm])
        hquote s
      rw [h, TagEnd.append_closed] at hend
      simpa using hend
  have hequals : EndsTag ('=' :: (a.after ++ a.quote :: (a.value ++ a.quote :: s)))
      ('=' :: (a.after ++ a.quote :: (a.value ++ a.quote :: inside))) rest := by
    intro last
    rw [tagEnd_equals, hvalue]
    rfl
  simpa [QuotedAttribute.written] using hequals.append ha.ne_of_mem

/-- A tag still ends where it did with attributes before its end whose values are seen. -/
theorem EndsTag.quotedAttributes (h : EndsTag s inside rest)
    (ha : ∀ a ∈ attributes, a.IsWellFormed) (hseen : ∀ a ∈ attributes, a.IsSeen) :
    EndsTag (attributes.flatMap QuotedAttribute.written ++ s)
      (attributes.flatMap QuotedAttribute.written ++ inside) rest := by
  induction attributes with
  | nil => exact h
  | cons a attributes ih =>
    obtain ⟨ha, hattributes⟩ := List.forall_mem_cons.1 ha
    obtain ⟨hseen, hrest⟩ := List.forall_mem_cons.1 hseen
    simpa using (ih hattributes hrest).quotedAttribute ha hseen

/-- **A bracket in a value that is not seen** ends the tag, in the middle of the value. -/
theorem tagInside?_hidden (ha : a.IsWellFormed) (hhidden : ∃ c ∈ a.after, c ∉ seenBlanks)
    {name v v' : Text} {attributes : List QuotedAttribute} (hname : Token.IsTagName name)
    (hattributes : ∀ a ∈ attributes, a.IsWellFormed) (hseen : ∀ a ∈ attributes, a.IsSeen)
    (hvalue : a.value = v ++ '>' :: v') (hbracket : '>' ∉ v)
    (hquote : startsValue a.quote v = false) (s : Text) :
    tagInside? (name ++ (attributes.flatMap QuotedAttribute.written ++ (a.written ++ s))) =
      some (name ++ (attributes.flatMap QuotedAttribute.written ++
        (a.gap ++ (a.name ++ (a.before ++ '=' :: (a.after ++ a.quote :: v))))),
        v' ++ a.quote :: s) := by
  have hcut : EndsTag ('=' :: (a.after ++ a.quote :: (v ++ '>' :: (v' ++ a.quote :: s))))
      ('=' :: (a.after ++ a.quote :: v)) (v' ++ a.quote :: s) := by
    intro last
    obtain ⟨last', hend⟩ := ha.tagEnd_hidden hhidden hbracket hquote ('>' :: (v' ++ a.quote :: s))
    rw [tagEnd_equals, hend, EndsTag.bracket, TagEnd.append_closed, List.append_nil]
    rfl
  have htag := ((hcut.append ha.ne_of_mem).quotedAttributes hattributes hseen).name hname '<'
  rw [tagInside?]
  simp only [QuotedAttribute.written, hvalue, List.append_assoc, List.cons_append,
    List.nil_append] at htag ⊢
  rw [htag]

end Segment

/-! ## (4) Tags -/

namespace Token

variable {name trailing : Text} {attributes : List QuotedAttribute}

/-- Attributes in quotes start with a blank and end in a quote. -/
theorem exists_quotedAttributes (h : ∀ a ∈ attributes, a.IsWellFormed) :
    attributes.flatMap QuotedAttribute.written = [] ∨
      ∃ gap s quote, attributes.flatMap QuotedAttribute.written = gap :: (s ++ [quote]) ∧
        Text.isBlank gap = true ∧ (quote = '"' ∨ quote = '\x27') := by
  induction attributes with
  | nil => exact .inl rfl
  | cons a attributes ih =>
    obtain ⟨ha, hattributes⟩ := List.forall_mem_cons.1 h
    obtain ⟨gap, gaps, hgap⟩ := List.exists_cons_of_ne_nil ha.gap_ne_nil
    have hblank := ha.gap gap (hgap ▸ List.mem_cons_self)
    right
    obtain hnil | ⟨gap', s, quote, hs, -, hquote⟩ := ih hattributes
    · exact ⟨gap, gaps ++ (a.name ++ (a.before ++ '=' :: (a.after ++ a.quote :: a.value))), a.quote,
        by simp [QuotedAttribute.written, hgap, hnil], hblank, ha.quote⟩
    · exact ⟨gap, gaps ++ (a.name ++ (a.before ++ '=' :: (a.after ++ a.quote ::
        (a.value ++ a.quote :: gap' :: s)))), quote,
        by simp [QuotedAttribute.written, hgap, hs], hblank, hquote⟩

/-- Blanks at the end are trimmed. -/
theorem trimRight_append_blanks (h : ∀ c ∈ trailing, Text.isBlank c = true) (s : Text) :
    Text.trimRight Text.isBlank (s ++ trailing) = Text.trimRight Text.isBlank s := by
  have hreverse : ∀ c ∈ trailing.reverse, Text.isBlank c = true := fun c hc =>
    h c (List.mem_reverse.1 hc)
  rw [Text.trimRight, List.reverse_append, List.dropWhile_append_of_pos hreverse, Text.trimRight]

/-- No slash ends attributes in quotes. -/
theorem getLast?_quotedAttributes (h : ∀ a ∈ attributes, a.IsWellFormed)
    (htrailing : ∀ c ∈ trailing, Text.isBlank c = true) :
    (Text.trimRight Text.isBlank
      (attributes.flatMap QuotedAttribute.written ++ trailing)).getLast? ≠ some '/' := by
  rw [trimRight_append_blanks htrailing]
  obtain hnil | ⟨gap, s, quote, hs, -, hquote⟩ := exists_quotedAttributes h
  · rw [hnil]
    decide
  · rcases hquote with rfl | rfl
    all_goals
      rw [hs, ← List.cons_append, trimRight_concat (by decide), List.getLast?_concat]
      decide

/-- The name of a tag ends before its attributes and before blanks. -/
theorem head?_quotedAttributes (h : ∀ a ∈ attributes, a.IsWellFormed)
    (htrailing : ∀ c ∈ trailing, Text.isBlank c = true) :
    (attributes.flatMap QuotedAttribute.written ++ trailing).head?.any isTagChar = false := by
  obtain hnil | ⟨gap, s, quote, hs, hgap, -⟩ := exists_quotedAttributes h
  · rw [hnil]
    cases trailing with
    | nil => rfl
    | cons c trailing => exact isTagChar_of_isBlank (htrailing c List.mem_cons_self)
  · rw [hs]
    exact isTagChar_of_isBlank hgap

/-- Attributes in quotes are read from their text, and blanks behind them give none. -/
theorem readRaw_quotedAttributes (h : ∀ a ∈ attributes, a.IsWellFormed)
    (htrailing : ∀ c ∈ trailing, Text.isBlank c = true) :
    Attribute.readRaw (attributes.flatMap QuotedAttribute.written ++ trailing) =
      attributes.map fun a => ⟨a.name, a.value⟩ := by
  induction attributes with
  | nil =>
    have hskip : trailing.dropWhile (fun c => !Attribute.isNameChar c) = [] :=
      List.dropWhile_eq_nil_iff.2 fun c hc => by
        simp [QuotedAttribute.isNameChar_of_isBlank (htrailing c hc)]
    rw [List.flatMap_nil, List.nil_append, Attribute.readRaw]
    split
    · rfl
    · rename_i hname
      rw [hskip] at hname
      cases hname
  | cons a attributes ih =>
    obtain ⟨ha, hattributes⟩ := List.forall_mem_cons.1 h
    rw [List.flatMap_cons, List.append_assoc, ha.readRaw_written, ih hattributes, List.map_cons]

/-- The token of a tag with attributes in quotes. -/
theorem ofTag_quoted (hname : IsTagName name) (hvoid : Text.lower name ∉ voidNames)
    (h : ∀ a ∈ attributes, a.IsWellFormed) (htrailing : ∀ c ∈ trailing, Text.isBlank c = true)
    (asciiOnly : Bool) :
    ofTag asciiOnly (name ++ (attributes.flatMap QuotedAttribute.written ++ trailing)) =
      .opening (Text.lower name) (attributes.map fun a =>
        ⟨Text.lower a.name, Entity.decode asciiOnly a.value⟩) := by
  rw [ofTag_name hname (head?_quotedAttributes h htrailing),
    if_neg (getLast?_quotedAttributes h htrailing), if_neg (by simpa using hvoid), Attribute.read,
    readRaw_quotedAttributes h htrailing, List.map_map]
  rfl

/-- **A tag with attributes in quotes** is read as one token that has all of them, with their names
in lowercase and the references in their values decoded, if each value is seen or has nothing in it
that would end a tag. -/
theorem scan_quoted (hname : IsTagName name) (hraw : Text.lower name ∉ rawNames)
    (hvoid : Text.lower name ∉ voidNames) (h : ∀ a ∈ attributes, a.IsWellFormed)
    (hseen : ∀ a ∈ attributes, a.IsSeen) (htrailing : ∀ c ∈ trailing, Text.isBlank c = true)
    (rest : Text) (asciiOnly : Bool) :
    scan ('<' :: (name ++ attributes.flatMap QuotedAttribute.written ++ trailing ++ '>' :: rest))
        asciiOnly =
      .opening (Text.lower name) (attributes.map fun a =>
        ⟨Text.lower a.name, Entity.decode asciiOnly a.value⟩) :: scan rest asciiOnly := by
  have htag := ofTag_quoted hname hvoid h htrailing
  -- The bracket that ends the tag is found behind the attributes, none of which hides it.
  have hend : Segment.EndsTag
      (name ++ (attributes.flatMap QuotedAttribute.written ++ trailing) ++ '>' :: rest)
      (name ++ (attributes.flatMap QuotedAttribute.written ++ trailing)) rest := by
    have hbracket := (Segment.EndsTag.bracket rest).append fun c hc =>
      Segment.ne_of_isBlank (htrailing c hc)
    simpa using (hbracket.quotedAttributes h hseen).name hname
  -- The element is not raw, so that its content is read like any other.
  have hrawName : Segment.rawName?
      (.tag (name ++ (attributes.flatMap QuotedAttribute.written ++ trailing))) = none := by
    rw [Segment.rawName?, htag, rawName?, if_neg (by simpa using hraw)]
  have hstart : Segment.startsTag
      (name ++ (attributes.flatMap QuotedAttribute.written ++ trailing) ++ '>' :: rest) = true := by
    rw [List.append_assoc]
    exact Segment.startsTag_name hname _
  have hcut := Segment.segmentsAfter_of_endsTag hstart hend hrawName []
  rw [List.append_assoc name, scan, segments, hcut, List.flatMap_append, List.flatMap_cons,
    Segment.tokens, htag]
  rfl

/-- Brackets, equals signs and quotes of the other kind in values, and a form feed around an equals
sign whose value has none of them. -/
theorem scan_quoted_marks :
    let attributes : List QuotedAttribute :=
      [⟨['\t'], "Title".toList, [' '], ['\n'], '"', "a='>' &gt; b".toList⟩,
        ⟨[' '], "id".toList, ['\x0c'], ['\x0c'], '\x27', "x\"y".toList⟩]
    IsTagName "P".toList ∧ Text.lower "P".toList ∉ rawNames ∧ Text.lower "P".toList ∉ voidNames ∧
      (∀ a ∈ attributes, a.IsWellFormed) ∧ (∀ a ∈ attributes, a.IsSeen) ∧
      (∀ c ∈ [' '], Text.isBlank c = true) ∧
      scan ('<' :: ("P".toList ++ attributes.flatMap QuotedAttribute.written ++ [' '] ++
          '>' :: "c>".toList)) false =
        [.opening "p".toList [⟨"title".toList, "a='>' > b".toList⟩, ⟨"id".toList, "x\"y".toList⟩],
          .text "c>".toList] := by
  intro attributes
  have hname : IsTagName "P".toList := by decide
  have hraw : Text.lower "P".toList ∉ rawNames := by decide +kernel
  have hvoid : Text.lower "P".toList ∉ voidNames := by decide +kernel
  have hwell : ∀ a ∈ attributes, a.IsWellFormed := by decide
  have hseen : ∀ a ∈ attributes, a.IsSeen := by decide
  have htrailing : ∀ c ∈ [' '], Text.isBlank c = true := List.forall_mem_singleton.2 rfl
  have hscan := scan_quoted hname hraw hvoid hwell hseen htrailing "c>".toList false
  exact ⟨hname, hraw, hvoid, hwell, hseen, htrailing, hscan.trans (by decide +kernel)⟩

/-- Behind a form feed, the quote is not seen: the bracket in the value ends the tag. -/
theorem scan_quoted_hidden :
    let a : QuotedAttribute := ⟨[' '], ['a'], [], ['\x0c'], '"', "x>y".toList⟩
    IsTagName ['p'] ∧ ['p'] ∉ rawNames ∧ ['p'] ∉ voidNames ∧ a.IsWellFormed ∧
      scan ('<' :: (['p'] ++ a.written ++ ['>'])) =
        [.opening ['p'] [⟨['a'], []⟩, ⟨['x'], []⟩], .text "y\">".toList] ∧
      scan ('<' :: (['p'] ++ a.written ++ ['>'])) ≠ [.opening ['p'] [⟨['a'], "x>y".toList⟩]] := by
  intro a
  have hscan : scan ('<' :: (['p'] ++ a.written ++ ['>'])) =
      [.opening ['p'] [⟨['a'], []⟩, ⟨['x'], []⟩], .text "y\">".toList] := by decide +kernel
  refine ⟨by decide, by decide, by decide, by decide, hscan, ?_⟩
  rw [hscan]
  decide

end Token

end ChapterLayout
