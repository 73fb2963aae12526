import Mathlib.Data.List.Chain
import ChapterLayout.Markup.Segment
import ChapterLayout.Proofs.Markup.Encode

/-! # Markup is read back

Tokens are written as markup in one canonical way. Three scans have to agree on it when it is read:
the end of a tag outside quotes, the name of the tag, and its attributes:

* **`Segment.EndsTag.written`** — a quoted value hides the brackets it holds;
* **`Token.ofTag_inside`** — what stands between the brackets of a tag gives its token;
* **`Segment.segmentsAfter_tag`** — a tag is cut off at its own bracket;
* **`Token.scan_written`** — tokens are read from the markup they are written as. -/

namespace ChapterLayout

/-! ## (1) Tokens as they are written -/

namespace Token

/-- The characters of character data that are written as references. -/
def marks : List Char := ['&', '<', '>']

/-- Every character that has to be marked in a text has a reference. -/
theorem isMarking_marks : Entity.IsMarking marks := ⟨by simp [marks], by simp [marks, Entity.named]⟩

/-- What stands between the brackets of a tag. -/
def inside : Token → Text
  | .opening name attributes => name ++ attributes.flatMap Attribute.written
  | .closing name => '/' :: name
  | .empty name attributes => name ++ (attributes.flatMap Attribute.written ++ ['/'])
  | .text _ => []

/-- Whether the token is text. -/
def isText : Token → Bool
  | .text _ => true
  | _ => false

/-- The token as it is written. -/
def written : Token → Text
  | .text s => Entity.encode marks s
  | token => '<' :: (token.inside ++ ['>'])

/-- Whether a tag with this name is read as it is written: the name starts with a letter and has no
capital letters. -/
structure IsName (name : Text) : Prop where
  head : name.head?.any Text.isAsciiLetter = true
  tail : name.tail.all isTagChar = true
  lower : Text.lower name = name

instance : DecidablePred IsName := fun name =>
  decidable_of_iff (name.head?.any Text.isAsciiLetter = true ∧
      name.tail.all isTagChar = true ∧ Text.lower name = name)
    ⟨fun h => ⟨h.1, h.2.1, h.2.2⟩, fun h => ⟨h.1, h.2, h.3⟩⟩

/-- Whether the token is read as it is written: text is not empty, names and attributes are
canonical, and no element is opened that has raw content or none. -/
def IsCanonical : Token → Prop
  | .opening name attributes =>
    IsName name ∧ (name ∉ rawNames ∧ name ∉ voidNames) ∧ ∀ a ∈ attributes, a.IsCanonical
  | .closing name => IsName name
  | .empty name attributes => IsName name ∧ ∀ a ∈ attributes, a.IsCanonical
  | .text s => s ≠ []

instance : DecidablePred IsCanonical
  | .opening name attributes => inferInstanceAs (Decidable
      (IsName name ∧ (name ∉ rawNames ∧ name ∉ voidNames) ∧ ∀ a ∈ attributes, a.IsCanonical))
  | .closing name => inferInstanceAs (Decidable (IsName name))
  | .empty name attributes =>
    inferInstanceAs (Decidable (IsName name ∧ ∀ a ∈ attributes, a.IsCanonical))
  | .text s => inferInstanceAs (Decidable (s ≠ []))

variable {name s : Text} {token : Token} {attributes : List Attribute} {asciiOnly : Bool}

/-! ## (2) Names -/

/-- The blank before an attribute belongs to no name. -/
theorem isTagChar_blank : isTagChar ' ' = false := by decide

/-- The slash at the end of a tag belongs to no name. -/
theorem isTagChar_slash : isTagChar '/' = false := by decide

/-- Letters of the Latin alphabet are ASCII characters. -/
theorem toNat_lt_of_isAsciiLetter {c : Char} (h : Text.isAsciiLetter c = true) :
    c.toNat < 0x80 := by
  have hcases : (c.isUpper || c.isLower) = true := h
  rcases Bool.or_eq_true_iff.1 hcases with hupper | hlower
  · have hle : 'A'.val ≤ c.val ∧ c.val ≤ 'Z'.val := of_decide_eq_true hupper
    exact Nat.lt_of_le_of_lt (UInt32.le_iff_toNat_le.1 hle.2) (by decide)
  · have hle : (decide ('a'.val ≤ c.val) && decide (c.val ≤ 'z'.val)) = true := hlower
    rw [Bool.and_eq_true, decide_eq_true_eq, decide_eq_true_eq] at hle
    exact Nat.lt_of_le_of_lt (UInt32.le_iff_toNat_le.1 hle.2) (by decide)

/-- A letter may stand in a name. -/
theorem isTagChar_of_isAsciiLetter {c : Char} (h : Text.isAsciiLetter c = true) :
    isTagChar c = true := by
  have halpha : c.isAlphanum = true := Bool.or_eq_true_iff.2 (Or.inl h)
  simp [isTagChar, Text.isWordChar, toNat_lt_of_isAsciiLetter h, halpha]

/-- Whether a text is the name of a tag, in letters of either case. -/
structure IsTagName (name : Text) : Prop where
  head : name.head?.any Text.isAsciiLetter = true
  tail : name.tail.all isTagChar = true

instance : DecidablePred IsTagName := fun name =>
  decidable_of_iff (name.head?.any Text.isAsciiLetter = true ∧ name.tail.all isTagChar = true)
    ⟨fun h => ⟨h.1, h.2⟩, fun h => ⟨h.1, h.2⟩⟩

/-- A name of canonical tokens is one that a tag can have. -/
theorem IsName.isTagName (h : IsName name) : IsTagName name := ⟨h.head, h.tail⟩

/-- All characters of a name belong to it. -/
theorem IsTagName.isTagChar (h : IsTagName name) : ∀ c ∈ name, isTagChar c = true := by
  cases name with
  | nil => simp
  | cons c name =>
    exact List.forall_mem_cons.2
      ⟨isTagChar_of_isAsciiLetter (by simpa using h.head), List.all_eq_true.1 h.tail⟩

/-- A name starts with a letter. -/
theorem IsTagName.exists_cons (h : IsTagName name) :
    ∃ c s, name = c :: s ∧ Text.isAsciiLetter c = true := by
  cases name with
  | nil => exact absurd h.head (by simp)
  | cons c s => exact ⟨c, s, rfl, by simpa using h.head⟩

/-- What follows the name of a tag does not belong to it. -/
theorem takeWhile_name (hname : IsTagName name) (hs : s.head?.any isTagChar = false) :
    (name ++ s).takeWhile isTagChar = name ∧ (name ++ s).dropWhile isTagChar = s := by
  rw [List.takeWhile_append_of_pos hname.isTagChar, List.dropWhile_append_of_pos hname.isTagChar]
  cases s with
  | nil => simp
  | cons c s =>
    have hc : ¬isTagChar c = true := by simpa using hs
    rw [List.takeWhile_cons_of_neg hc, List.dropWhile_cons_of_neg hc, List.append_nil]
    exact ⟨rfl, rfl⟩

/-- Attributes start with a blank and end in a quote. -/
theorem attributes_written (attributes : List Attribute) :
    attributes.flatMap Attribute.written = [] ∨
      ∃ s, attributes.flatMap Attribute.written = ' ' :: (s ++ ['"']) := by
  induction attributes with
  | nil => exact .inl rfl
  | cons a attributes ih =>
    right
    rw [List.flatMap_cons, Attribute.written]
    obtain hnil | ⟨s, hs⟩ := ih
    · exact ⟨a.name ++ '=' :: '"' :: Entity.encode Attribute.marks a.value, by simp [hnil]⟩
    · exact ⟨a.name ++ '=' :: '"' :: (Entity.encode Attribute.marks a.value ++ '"' :: ' ' :: s),
        by simp [hs]⟩

/-- A character that is not blank ends what is trimmed on the right. -/
theorem trimRight_concat {c : Char} (hc : Text.isBlank c = false) (s : Text) :
    Text.trimRight Text.isBlank (s ++ [c]) = s ++ [c] := by
  rw [Text.trimRight, List.reverse_concat, List.dropWhile_cons_of_neg (by simp [hc]),
    ← List.reverse_concat, List.reverse_reverse]

/-- **The token of a tag that opens something** is made of its name and of what follows. -/
theorem ofTag_name (hname : IsTagName name) (hs : s.head?.any isTagChar = false)
    (asciiOnly : Bool) :
    ofTag asciiOnly (name ++ s) =
      if (Text.trimRight Text.isBlank s).getLast? = some '/' then
        .empty (Text.lower name)
          (Attribute.read asciiOnly (Text.trimRight Text.isBlank s).dropLast)
      else if voidNames.contains (Text.lower name) then
        .empty (Text.lower name) (Attribute.read asciiOnly s)
      else .opening (Text.lower name) (Attribute.read asciiOnly s) := by
  obtain ⟨htake, hdrop⟩ := takeWhile_name hname hs
  obtain ⟨c, n, rfl, hc⟩ := hname.exists_cons
  have hslash : c ≠ '/' := by
    rintro rfl
    exact absurd hc (by decide)
  rw [ofTag]
  · rw [htake, hdrop]
  · intro t ht
    exact hslash (List.cons.inj ht).1

/-- No slash ends the attributes of a tag. -/
theorem getLast?_attributes (attributes : List Attribute) :
    (Text.trimRight Text.isBlank (attributes.flatMap Attribute.written)).getLast? ≠ some '/' := by
  obtain hnil | ⟨s, hs⟩ := attributes_written attributes
  · rw [hnil]
    decide
  · rw [hs, ← List.cons_append, trimRight_concat (by decide), List.getLast?_concat]
    decide

/-- What follows a name does not belong to it: attributes, or the end of the tag. -/
theorem head?_attributes_append (attributes : List Attribute) {t : Text}
    (ht : t.head?.any isTagChar = false) :
    (attributes.flatMap Attribute.written ++ t).head?.any isTagChar = false := by
  obtain hnil | ⟨s, hs⟩ := attributes_written attributes
  · rw [hnil]
    exact ht
  · rw [hs]
    exact isTagChar_blank

/-- **What stands between the brackets of a tag** gives its token. -/
theorem ofTag_inside (h : token.IsCanonical) (htext : token.isText = false) (asciiOnly : Bool) :
    ofTag asciiOnly token.inside = token := by
  cases token with
  | opening name attributes =>
    obtain ⟨hname, ⟨_, hvoid⟩, hattributes⟩ := h
    have hs := head?_attributes_append attributes (t := []) rfl
    rw [List.append_nil] at hs
    rw [inside, ofTag_name hname.isTagName hs, if_neg (getLast?_attributes attributes), hname.lower,
      if_neg (by simpa using hvoid), Attribute.read_written hattributes]
  | closing name =>
    obtain ⟨htake, _⟩ := takeWhile_name (s := []) (IsName.isTagName h) rfl
    rw [List.append_nil] at htake
    rw [inside, ofTag, htake, h.lower]
  | empty name attributes =>
    obtain ⟨hname, hattributes⟩ := h
    have hs := head?_attributes_append attributes (t := ['/']) isTagChar_slash
    rw [inside, ofTag_name hname.isTagName hs, trimRight_concat (by decide), if_pos (by simp),
      List.dropLast_concat, hname.lower, Attribute.read_written hattributes]
  | text s => cases htext

end Token

/-! ## (3) The end of a tag -/

namespace Segment

variable {s inside rest v : Text} {c : Char}

/-- Whether a tag ends in a text, outside quotes, whatever stands before it. -/
def EndsTag (s inside rest : Text) : Prop := ∀ last, tagEnd none last s = .closed inside rest

/-- A bracket ends a tag. -/
theorem EndsTag.bracket (rest : Text) : EndsTag ('>' :: rest) [] rest := fun _ => rfl

/-- A character that is no bracket and no quote does not end a tag. -/
theorem EndsTag.cons (h : EndsTag s inside rest) (hc : c ≠ '>' ∧ c ≠ '"' ∧ c ≠ '\x27') :
    EndsTag (c :: s) (c :: inside) rest := by
  intro last
  simp [tagEnd, hc, h _, TagEnd.cons]

/-- The name of an attribute holds no bracket and no quote. -/
theorem ne_of_isNameChar (h : Attribute.isNameChar c = true) :
    c ≠ '>' ∧ c ≠ '"' ∧ c ≠ '\x27' := by
  simp only [Attribute.isNameChar, Bool.not_eq_true', Bool.or_eq_false_iff,
    beq_eq_false_iff_ne] at h
  exact ⟨h.1.1.2, h.1.2, h.2⟩

/-- Text without brackets and quotes does not end a tag. -/
theorem EndsTag.append (h : EndsTag s inside rest) {t : Text}
    (ht : ∀ c ∈ t, c ≠ '>' ∧ c ≠ '"' ∧ c ≠ '\x27') : EndsTag (t ++ s) (t ++ inside) rest := by
  induction t with
  | nil => exact h
  | cons c t ih =>
    obtain ⟨hc, ht⟩ := List.forall_mem_cons.1 ht
    exact (ih ht).cons hc

/-- **Brackets in quotes** do not end a tag. -/
theorem EndsTag.quoted (h : EndsTag s inside rest) {quote : Char} (hv : quote ∉ v) (last : Char) :
    tagEnd (some quote) last (v ++ quote :: s) = .closed (v ++ quote :: inside) rest := by
  induction v generalizing last with
  | nil => simp [tagEnd, h _, TagEnd.cons]
  | cons c v ih =>
    obtain ⟨hc, hv⟩ := not_or.1 (List.mem_cons.not.1 hv)
    rw [List.cons_append, tagEnd, if_neg (by simpa using Ne.symm hc), ih hv]
    rfl

/-- **An attribute** does not end its tag. -/
theorem EndsTag.written (h : EndsTag s inside rest) {a : Attribute} (ha : a.IsCanonical) :
    EndsTag (a.written ++ s) (a.written ++ inside) rest := by
  have hname : ∀ c ∈ ' ' :: a.name, c ≠ '>' ∧ c ≠ '"' ∧ c ≠ '\x27' :=
    List.forall_mem_cons.2 ⟨by decide, fun c hc =>
      ne_of_isNameChar (List.all_eq_true.1 ha.nameChar c hc)⟩
  have hvalue : EndsTag ('=' :: '"' :: (Entity.encode Attribute.marks a.value ++ '"' :: s))
      ('=' :: '"' :: (Entity.encode Attribute.marks a.value ++ '"' :: inside)) rest := by
    intro last
    -- The quote comes right after the equals sign, so it starts a value.
    have hopen := h.quoted (Attribute.quote_not_mem_encode a.value) '"'
    simp [tagEnd, lastVisible, hopen, TagEnd.cons]
  simpa [Attribute.written] using hvalue.append hname

/-- Attributes in canonical form do not end a tag. -/
theorem EndsTag.attributes (h : EndsTag s inside rest) {attributes : List Attribute}
    (ha : ∀ a ∈ attributes, a.IsCanonical) :
    EndsTag (attributes.flatMap Attribute.written ++ s)
      (attributes.flatMap Attribute.written ++ inside) rest := by
  induction attributes with
  | nil => exact h
  | cons a attributes ih =>
    obtain ⟨ha, hattributes⟩ := List.forall_mem_cons.1 ha
    simpa using (ih hattributes).written ha

/-- A name does not end its tag. -/
theorem EndsTag.name (h : EndsTag s inside rest) {name : Text} (hname : Token.IsTagName name) :
    EndsTag (name ++ s) (name ++ inside) rest := by
  refine h.append fun c hc => ?_
  have hchar := hname.isTagChar c hc
  refine ⟨?_, ?_, ?_⟩
  all_goals
    rintro rfl
    exact absurd hchar (by decide)

/-- A slash does not end a tag. -/
theorem EndsTag.slash (h : EndsTag s inside rest) : EndsTag ('/' :: s) ('/' :: inside) rest :=
  h.cons (by decide)

/-- **A tag ends at its own bracket.** -/
theorem EndsTag.token {token : Token} (h : token.IsCanonical) (rest : Text) :
    EndsTag (token.inside ++ '>' :: rest) token.inside rest := by
  cases token with
  | opening name attributes =>
    obtain ⟨hname, _, hattributes⟩ := h
    simpa [Token.inside] using ((EndsTag.bracket rest).attributes hattributes).name hname.isTagName
  | closing name =>
    simpa [Token.inside] using ((EndsTag.bracket rest).name (Token.IsName.isTagName h)).slash
  | empty name attributes =>
    obtain ⟨hname, hattributes⟩ := h
    simpa [Token.inside] using
      ((EndsTag.bracket rest).slash.attributes hattributes).name hname.isTagName
  | text s => exact EndsTag.bracket rest

/-! ## (4) Segments -/

/-- A name starts a tag. -/
theorem startsTag_name {name : Text} (hname : Token.IsTagName name) (s : Text) :
    startsTag (name ++ s) = true := by
  obtain ⟨c, n, rfl, hc⟩ := hname.exists_cons
  rw [List.cons_append, startsTag]
  · exact hc
  · rintro d t rfl
    exact absurd hc (by decide)

/-- A tag starts with a letter or with a slash and a letter. -/
theorem startsTag_inside {token : Token} (h : token.IsCanonical) (htext : token.isText = false)
    (rest : Text) : startsTag (token.inside ++ rest) = true := by
  cases token with
  | opening name attributes =>
    rw [Token.inside, List.append_assoc]
    exact startsTag_name h.1.isTagName _
  | closing name =>
    obtain ⟨c, n, rfl, hc⟩ := (Token.IsName.isTagName h).exists_cons
    exact hc
  | empty name attributes =>
    rw [Token.inside, List.append_assoc]
    exact startsTag_name h.1.isTagName _
  | text s => cases htext

/-- What starts a tag starts nothing else. -/
theorem construct_of_startsTag (h : startsTag s = true)
    (hinside : tagInside? s = some (inside, rest)) : construct s = .closed (.tag inside) rest := by
  -- Other constructs start with marks that are no slash and no letter.
  have hmark : ∀ {mark : Char} (m : Text), mark ≠ '/' → Text.isAsciiLetter mark = false →
      (mark :: m).isPrefixOf s = false := by
    intro mark m hslash hletter
    cases s with
    | nil => rfl
    | cons c s =>
      rw [List.isPrefixOf, Bool.and_eq_false_iff]
      left
      rw [beq_eq_false_iff_ne]
      rintro rfl
      rw [startsTag, hletter] at h
      · cases h
      · rintro d t rfl
        exact absurd rfl hslash
  have hbang : ∀ m : Text, ('!' :: m).isPrefixOf s = false := fun m =>
    hmark m (by decide) (by decide)
  have hquery : ['?'].isPrefixOf s = false := hmark [] (by decide) (by decide)
  simp [construct, hbang, hquery, h, hinside]

/-- A tag opens no raw content. -/
theorem rawName?_inside {token : Token} (h : token.IsCanonical) (htext : token.isText = false) :
    rawName? (.tag token.inside) = none := by
  rw [rawName?, Token.ofTag_inside h htext]
  cases token with
  | opening name attributes => simp [Token.rawName?, h.2.1.1]
  | closing name => rfl
  | empty name attributes => rfl
  | text s => rfl

/-- Character data is collected. -/
theorem segmentsAfter_append {u : Text} (hu : '<' ∉ u) (before s : Text) :
    segmentsAfter before (u ++ s) = segmentsAfter (u.reverse ++ before) s := by
  induction u generalizing before with
  | nil => rfl
  | cons c u ih =>
    obtain ⟨hc, hu⟩ := not_or.1 (List.mem_cons.not.1 hu)
    rw [List.cons_append, segmentsAfter, if_neg (Ne.symm hc), ih hu, List.reverse_cons,
      List.append_assoc, List.singleton_append]

/-- **A tag is cut off at the bracket that ends it,** and what was collected before it comes
first. -/
theorem segmentsAfter_of_endsTag (hstart : startsTag (inside ++ '>' :: rest) = true)
    (hend : EndsTag (inside ++ '>' :: rest) inside rest) (hraw : rawName? (.tag inside) = none)
    (before : Text) :
    segmentsAfter before ('<' :: (inside ++ '>' :: rest)) =
      unlessEmpty .text before.reverse ++ .tag inside :: segmentsAfter [] rest := by
  have hinside : tagInside? (inside ++ '>' :: rest) = some (inside, rest) := by
    rw [tagInside?, hend]
  have hconstruct := construct_of_startsTag hstart hinside
  rw [segmentsAfter, if_pos rfl]
  split
  · rename_i segment rest' hclosed
    obtain ⟨rfl, rfl⟩ := Construct.closed.inj (hconstruct.symm.trans hclosed)
    rw [hraw]
  · rename_i hunclosed
    cases hconstruct.symm.trans hunclosed
  · rename_i hbare
    cases hconstruct.symm.trans hbare

/-- **A tag is cut off at its own bracket.** -/
theorem segmentsAfter_tag {token : Token} (h : token.IsCanonical) (htext : token.isText = false)
    (before rest : Text) :
    segmentsAfter before (token.written ++ rest) =
      unlessEmpty .text before.reverse ++ .tag token.inside :: segmentsAfter [] rest := by
  have hwritten : token.written ++ rest = '<' :: (token.inside ++ '>' :: rest) := by
    cases token with
    | text s => cases htext
    | _ => simp [Token.written]
  rw [hwritten, segmentsAfter_of_endsTag (startsTag_inside h htext _) (EndsTag.token h rest)
    (rawName?_inside h htext)]

end Segment

/-! ## (5) Chapters -/

namespace Token

variable {tokens : List Token}

/-- The token of a text, unless it is empty. -/
def ofText (s : Text) : List Token := if s.isEmpty then [] else [.text s]

/-- Whether two texts stand apart. -/
def Apart (t u : Token) : Prop := t.isText = true → u.isText = false

instance : DecidableRel Apart := fun t u =>
  inferInstanceAs (Decidable (t.isText = true → u.isText = false))

/-- The text that is collected gives its token. -/
theorem tokens_unlessEmpty (asciiOnly : Bool) (s : Text) :
    (Segment.unlessEmpty .text (Entity.encode marks s)).flatMap (Segment.tokens asciiOnly) =
      ofText s := by
  by_cases hs : s = []
  · subst hs
    rfl
  · have hencoded := Entity.encode_ne_nil hs marks
    simp [Segment.unlessEmpty, ofText, hs, hencoded, Segment.tokens,
      Entity.decode_encode isMarking_marks]

/-- **Tokens are read** behind the text `s` that is collected. -/
theorem tokens_segmentsAfter (hcanonical : ∀ t ∈ tokens, t.IsCanonical)
    (hapart : (ofText s ++ tokens).IsChain Apart) (asciiOnly : Bool) :
    (segmentsAfter (Entity.encode marks s).reverse (tokens.flatMap written)).flatMap
      (Segment.tokens asciiOnly) = ofText s ++ tokens := by
  -- Text is collected and gives its token at the next tag, or at the end.
  induction tokens generalizing s with
  | nil =>
    rw [List.flatMap_nil, segmentsAfter, List.reverse_reverse, tokens_unlessEmpty, List.append_nil]
  | cons token tokens ih =>
    obtain ⟨htoken, htokens⟩ := List.forall_mem_cons.1 hcanonical
    by_cases htext : token.isText = true
    · obtain ⟨t, rfl⟩ : ∃ t, token = .text t := by
        cases token with
        | text t => exact ⟨t, rfl⟩
        | _ => cases htext
      -- Texts stand apart, so nothing is collected yet.
      obtain rfl : s = [] := by
        by_contra hs
        have hchain : (.text s :: .text t :: tokens).IsChain Apart := by
          simpa [ofText, hs] using hapart
        exact absurd (hchain.rel rfl) (by simp [isText])
      have hopen : '<' ∉ Entity.encode marks t :=
        Entity.not_mem_encode isMarking_marks (by simp [marks]) (by decide) t
      have ht : t ≠ [] := htoken
      have hrest := ih htokens (s := t) (by simpa [ofText, ht] using hapart)
      rw [List.flatMap_cons, written, Segment.segmentsAfter_append hopen]
      simpa [ofText, ht, Entity.encode] using hrest
    · have htext : token.isText = false := by simpa using htext
      have hrest := ih htokens (s := []) (hapart.right_of_append.tail)
      rw [List.flatMap_cons, Segment.segmentsAfter_tag htoken htext, List.reverse_reverse,
        List.flatMap_append, tokens_unlessEmpty, List.flatMap_cons, Segment.tokens,
        ofTag_inside htoken htext]
      simpa [ofText, Entity.encode] using hrest

/-- **Tokens are read from the markup they are written as,** if texts stand apart. -/
theorem scan_written (hcanonical : ∀ t ∈ tokens, t.IsCanonical) (hapart : tokens.IsChain Apart)
    (asciiOnly : Bool) : scan (tokens.flatMap written) asciiOnly = tokens :=
  tokens_segmentsAfter (s := []) hcanonical hapart asciiOnly

/-- Brackets, an equals sign, quotes of both kinds and a slash in a value. -/
theorem scan_written_quotes :
    let tokens : List Token := [.text "1 < 2 &".toList,
      .opening "p".toList [⟨"title".toList, "> x='<\"/\">' & /".toList⟩, ⟨"id".toList, []⟩],
      .closing "p".toList, .empty "br".toList []]
    (∀ t ∈ tokens, t.IsCanonical) ∧ tokens.IsChain Apart ∧
      tokens.flatMap written =
        "1 &lt; 2 &amp;<p title=\"> x='<&quot;/&quot;>' &amp; /\" id=\"\"></p><br/>".toList ∧
      scan (tokens.flatMap written) = tokens := by
  intro tokens
  have hcanonical : ∀ t ∈ tokens, t.IsCanonical := by decide +kernel
  have hapart : tokens.IsChain Apart := by decide
  exact ⟨hcanonical, hapart, by decide +kernel, scan_written hcanonical hapart false⟩

end Token

end ChapterLayout
