import Mathlib.Data.List.Forall2
import ChapterLayout.Proofs.Markup.Cut

/-! # The end of a raw element

The content of a raw element ends where a closing tag of its name is found, and then this tag is
read like every other. The two do not agree on what a closing tag is: the search takes blanks before
the name and every form of a letter, while a tag starts with a letter of the Latin alphabet right
after the slash.

* **`Segment.exists_of_closesElement`** — what the search takes for the closing tag;
* **`Token.scan_eq_closing_iff`** — what it found is read as the closing tag if and only if it is
  written without blanks before the name and in letters of the Latin alphabet;
* **`Token.exists_of_scan`** — a tag among the tokens of a chapter, and what follows it. -/

namespace ChapterLayout

/-! ## (1) Forms of letters -/

namespace Text

variable {s : Text} {c letter : Char}

/-- The forms of `s` and `i` beyond the Latin alphabet that count as the letter when case is
ignored. -/
def otherForms : List Char := ['ſ', 'ı', 'İ']

/-- What counts as a letter is a form of it in the Latin alphabet or one of the other forms. -/
theorem toLower_or_mem_of_sameLetter (h : sameLetter letter c = true) :
    c.toLower = letter ∨ c ∈ otherForms := by
  simp only [sameLetter, Bool.or_eq_true, Bool.and_eq_true, beq_iff_eq] at h
  rcases h with (h | ⟨-, rfl⟩) | ⟨-, rfl | rfl⟩
  · exact .inl h
  · exact .inr (by decide)
  · exact .inr (by decide)
  · exact .inr (by decide)

/-- A character whose lowercase form is a letter of the Latin alphabet is one itself. -/
theorem isAsciiLetter_of_toLower (h : c.toLower.isLower = true) : isAsciiLetter c = true := by
  show (c.isUpper || c.isLower) = true
  rw [Bool.or_eq_true]
  by_cases hupper : c.isUpper = true
  · exact .inl hupper
  · -- Only capital letters are changed.
    have hsame : c.toLower = c := dif_neg fun hcapital => hupper (decide_eq_true hcapital)
    rw [hsame] at h
    exact .inr h

/-- Letters of the Latin alphabet are lowercased one by one. -/
theorem lower_of_isAsciiLetter (h : ∀ c ∈ s, isAsciiLetter c = true) :
    lower s = s.map Char.toLower := by
  have hafter : ∀ before, lowerAfter before s = s.map Char.toLower := by
    induction s with
    | nil => exact fun _ => rfl
    | cons c s ih =>
      intro before
      obtain ⟨hc, hs⟩ := List.forall_mem_cons.1 h
      have hascii : c.toNat < 0x80 := Token.toNat_lt_of_isAsciiLetter hc
      have hdotted : ¬(c.toNat == 0x130) = true := by
        rw [beq_iff_eq]
        omega
      have hsigma : ¬(c == 'Σ') = true := by
        rw [beq_iff_eq]
        rintro rfl
        exact absurd hascii (by decide)
      rw [lowerAfter, if_neg hdotted, if_neg hsigma, ih hs, lowerChar, if_pos hascii, List.map_cons]
  exact hafter []

/-- The other forms of letters do not become letters of the Latin alphabet in lowercase text. -/
theorem exists_mem_lower (hc : c ∈ otherForms) (h : c ∈ s) : ∃ d ∈ lower s, 0x80 ≤ d.toNat := by
  -- The text before is generalized, since the lower case of a sigma depends on it.
  have hafter : ∀ before, ∃ d ∈ lowerAfter before s, 0x80 ≤ d.toNat := by
    induction s with
    | nil => cases h
    | cons e s ih =>
      intro before
      rcases List.mem_cons.1 h with rfl | h
      · simp only [otherForms, List.mem_cons, List.not_mem_nil, or_false] at hc
        rcases hc with rfl | rfl | rfl
        · exact ⟨'ſ', List.mem_cons_self, by decide⟩
        · exact ⟨'ı', List.mem_cons_self, by decide⟩
        · exact ⟨Char.ofNat 0x307, List.mem_cons_of_mem _ List.mem_cons_self, by decide⟩
      · obtain ⟨d, hd, hwide⟩ := ih h (e :: before)
        refine ⟨d, ?_, hwide⟩
        rw [lowerAfter]
        split
        · exact List.mem_cons_of_mem _ (List.mem_cons_of_mem _ hd)
        · split
          · exact List.mem_cons_of_mem _ hd
          · exact List.mem_cons_of_mem _ hd
  exact hafter []

/-- The code points of the blanks. -/
def blankCodes : List Nat :=
  List.range' 0x09 5 ++ List.range' 0x1C 5 ++ [0x85, 0xA0, 0x1680] ++ List.range' 0x2000 11 ++
    [0x2028, 0x2029, 0x202F, 0x205F, 0x3000]

/-- The code point of a blank is one of those of the blanks. -/
theorem mem_blankCodes (h : isBlank c = true) : c.toNat ∈ blankCodes := by
  simp only [isBlank, Bool.or_eq_true, Bool.and_eq_true, decide_eq_true_eq, beq_iff_eq] at h
  simp only [blankCodes, List.mem_append, List.mem_range'_1, List.mem_cons, List.not_mem_nil,
    or_false]
  omega

/-- What holds of all blank code points holds of all blanks. -/
theorem forall_isBlank {P : Char → Prop} (hall : ∀ n ∈ blankCodes, P (Char.ofNat n))
    (h : isBlank c = true) : P c := by
  have := hall c.toNat (mem_blankCodes h)
  rwa [Char.ofNat_toNat] at this

end Text

/-! ## (2) What is taken for a closing tag -/

namespace Segment

variable {s t rest name letters blanks : Text} {c letter : Char}

/-- The name that was found, letter by letter. -/
theorem exists_of_dropName? (h : dropName? name s = some rest) :
    ∃ letters, s = letters ++ rest ∧
      List.Forall₂ (fun letter c => Text.sameLetter letter c = true) name letters := by
  induction name generalizing s with
  | nil => exact ⟨[], Option.some.inj h, .nil⟩
  | cons letter name ih =>
    cases s with
    | nil => cases h
    | cons c s =>
      rw [dropName?] at h
      split at h
      · rename_i hletter
        obtain ⟨letters, rfl, hletters⟩ := ih h
        exact ⟨c :: letters, rfl, .cons hletter hletters⟩
      · cases h

/-- **What the search takes for a closing tag:** a slash, and the letters of the name in any of
their forms with blanks on both sides. -/
theorem exists_of_closesElement (h : closesElement name s = true) :
    ∃ blanks letters blanks' rest,
      s = '<' :: '/' :: (blanks ++ (letters ++ (blanks' ++ '>' :: rest))) ∧
      List.Forall₂ (fun letter c => Text.sameLetter letter c = true) name letters ∧
      (∀ c ∈ blanks, Text.isBlank c = true) ∧ ∀ c ∈ blanks', Text.isBlank c = true := by
  have htrim : ∀ u : Text, u = u.takeWhile Text.isBlank ++ Text.trimLeft Text.isBlank u :=
    fun u => List.takeWhile_append_dropWhile.symm
  unfold closesElement at h
  split at h
  · rename_i s
    split at h
    · rename_i t hname
      obtain ⟨letters, hs, hletters⟩ := exists_of_dropName? hname
      have hend : (Text.trimLeft Text.isBlank t).head? = some '>' := by simpa using h
      obtain ⟨rest, hrest⟩ := List.head?_eq_some_iff.1 hend
      refine ⟨s.takeWhile Text.isBlank, letters, t.takeWhile Text.isBlank, rest, ?_, hletters,
        fun c hc => List.mem_takeWhile_imp hc, fun c hc => List.mem_takeWhile_imp hc⟩
      rw [← hrest, ← htrim t, ← hs, ← htrim s]
    · cases h
  · cases h

/-! ## (3) What is read as the closing tag -/

/-- The letters of a raw element's name are small ones. -/
theorem isLower_of_mem_rawNames (hname : name ∈ Token.rawNames) :
    ∀ letter ∈ name, letter.isLower = true := by
  have hall : ∀ n ∈ Token.rawNames, n.all Char.isLower = true := by decide
  exact List.all_eq_true.1 (hall name hname)

/-- The letters that are found for a name are of the Latin alphabet or other forms. -/
theorem isAsciiLetter_or_mem (hname : name ∈ Token.rawNames)
    (hletters : List.Forall₂ (fun letter c => Text.sameLetter letter c = true) name letters) :
    ∀ c ∈ letters, Text.isAsciiLetter c = true ∨ c ∈ Text.otherForms := by
  have hlower := isLower_of_mem_rawNames hname
  clear hname
  induction hletters with
  | nil => simp
  | cons hletter hletters ih =>
    obtain ⟨hfirst, hlower⟩ := List.forall_mem_cons.1 hlower
    refine List.forall_mem_cons.2 ⟨?_, ih hlower⟩
    rcases Text.toLower_or_mem_of_sameLetter hletter with hsame | hother
    · refine .inl (Text.isAsciiLetter_of_toLower ?_)
      rwa [hsame]
    · exact .inr hother

/-- **The letters found are read as the name** if and only if they are of the Latin alphabet. -/
theorem lower_eq_iff (hname : name ∈ Token.rawNames)
    (hletters : List.Forall₂ (fun letter c => Text.sameLetter letter c = true) name letters) :
    Text.lower letters = name ↔ ∀ c ∈ letters, Text.isAsciiLetter c = true := by
  constructor
  · rintro hlower c hc
    -- A letter of another form is not turned into one of the Latin alphabet, as the name would
    -- need.
    refine (isAsciiLetter_or_mem hname hletters c hc).resolve_right fun hother => ?_
    obtain ⟨d, hd, hwide⟩ := Text.exists_mem_lower hother hc
    rw [hlower] at hd
    have hnarrow : d.toNat < 0x80 :=
      Token.toNat_lt_of_isAsciiLetter
        (Bool.or_eq_true_iff.2 (.inr (isLower_of_mem_rawNames hname d hd)))
    omega
  · intro hascii
    rw [Text.lower_of_isAsciiLetter hascii]
    clear hname
    induction hletters with
    | nil => rfl
    | cons hletter hletters ih =>
      obtain ⟨hc, hascii⟩ := List.forall_mem_cons.1 hascii
      rw [List.map_cons, ih hascii]
      congr 1
      refine (Text.toLower_or_mem_of_sameLetter hletter).resolve_right fun hother => ?_
      have hnone : Text.otherForms.all (fun c => !Text.isAsciiLetter c) = true := by decide
      have hother' := List.all_eq_true.1 hnone _ hother
      rw [hc] at hother'
      cases hother'

/-- A character of a tag's name or a blank does not end the tag, and starts no quote. -/
theorem ne_bracket_of_isTagChar (h : Token.isTagChar c = true ∨ Text.isBlank c = true) :
    c ≠ '>' ∧ c ≠ '"' ∧ c ≠ '\x27' := by
  refine ⟨?_, ?_, ?_⟩
  all_goals
    rintro rfl
    revert h
    decide

/-- **A closing tag without blanks before its name** is read as such. -/
theorem construct_closing (hfirst : letters.head?.any Text.isAsciiLetter = true)
    (hletters : ∀ c ∈ letters, Token.isTagChar c = true)
    (hblanks : ∀ c ∈ blanks, Text.isBlank c = true) (rest : Text) :
    construct ('/' :: (letters ++ (blanks ++ '>' :: rest))) =
      .closed (.tag ('/' :: (letters ++ blanks))) rest := by
  refine construct_of_startsTag ?_ ?_
  · cases letters with
    | nil => cases hfirst
    | cons c letters => exact hfirst
  · have hends : EndsTag (letters ++ (blanks ++ '>' :: rest)) (letters ++ (blanks ++ [])) rest :=
      ((EndsTag.bracket rest).append fun c hc =>
        ne_bracket_of_isTagChar (.inr (hblanks c hc))).append fun c hc =>
          ne_bracket_of_isTagChar (.inl (hletters c hc))
    rw [List.append_nil] at hends
    rw [tagInside?, hends.slash]

/-- Behind character data that is collected, a text comes first. -/
theorem exists_text_of_collected {before : Text} (h : before ≠ []) (s : Text) :
    ∃ u segs, segmentsAfter before s = .text u :: segs := by
  have hfirst : ∀ {b : Text}, b ≠ [] → ∀ segs,
      ∃ u segs', unlessEmpty .text b.reverse ++ segs = .text u :: segs' := by
    intro b hb segs
    exact ⟨b.reverse, segs, by simp [unlessEmpty, hb]⟩
  -- What is collected only grows until it becomes the first text.
  induction before, s using segmentsAfter_induction with
  | nil before =>
    rw [segmentsAfter, ← List.append_nil (unlessEmpty _ _)]
    exact hfirst h []
  | data before c s hc ih =>
    rw [segmentsAfter_data hc]
    exact ih (List.cons_ne_nil _ _)
  | bare before s hconstruct ih =>
    rw [segmentsAfter_bare hconstruct]
    exact ih (List.cons_ne_nil _ _)
  | unclosed before s hconstruct => exact ⟨_, [], segmentsAfter_unclosed hconstruct before⟩
  | closed before s segment rest hconstruct ih =>
    rw [segmentsAfter_closed hconstruct]
    exact hfirst h _

end Segment

namespace Token

variable {s markup name : Text} {asciiOnly : Bool}

/-- A bracket that starts nothing gives a text first. -/
theorem exists_text_of_bare (h : Segment.construct s = .bare) (asciiOnly : Bool) :
    ∃ u later, scan ('<' :: s) asciiOnly = .text u :: later := by
  obtain ⟨u, segs, hsegs⟩ :=
    Segment.exists_text_of_collected (List.cons_ne_nil '<' []) s
  refine ⟨Entity.decode asciiOnly u, segs.flatMap (Segment.tokens asciiOnly), ?_⟩
  rw [scan, segments, Segment.segmentsAfter_bare h, hsegs]
  rfl

/-- The characters of a name that was found may stand in a tag's name. -/
theorem isTagChar_of_sameLetter {letters : Text} (hname : name ∈ rawNames)
    (hletters : List.Forall₂ (fun letter c => Text.sameLetter letter c = true) name letters) :
    ∀ c ∈ letters, isTagChar c = true := by
  have hother : Text.otherForms.all isTagChar = true := by decide +kernel
  intro c hc
  rcases Segment.isAsciiLetter_or_mem hname hletters c hc with hascii | hform
  · exact isTagChar_of_isAsciiLetter hascii
  · exact List.all_eq_true.1 hother c hform

/-- The token of a closing tag with blanks at its end. -/
theorem ofTag_closing {letters blanks : Text} (hletters : ∀ c ∈ letters, isTagChar c = true)
    (hblanks : ∀ c ∈ blanks, Text.isBlank c = true) (asciiOnly : Bool) :
    ofTag asciiOnly ('/' :: (letters ++ blanks)) = .closing (Text.lower letters) := by
  have hcodes : ∀ n ∈ Text.blankCodes, isTagChar (Char.ofNat n) = false := by decide +kernel
  have hnone : ∀ {c}, Text.isBlank c = true → isTagChar c = false :=
    fun hc => Text.forall_isBlank (P := fun c => isTagChar c = false) hcodes hc
  have hend : blanks.takeWhile isTagChar = [] := by
    cases blanks with
    | nil => rfl
    | cons c blanks =>
      exact List.takeWhile_cons_of_neg (by simp [hnone (hblanks c List.mem_cons_self)])
  rw [ofTag, List.takeWhile_append_of_pos hletters, hend, List.append_nil]

/-- **What was found is read as the closing tag** if and only if no blank stands before its name and
the name is written in letters of the Latin alphabet. -/
theorem scan_eq_closing_iff (hname : name ∈ rawNames)
    (hcloses : Segment.closesElement name s = true) (asciiOnly : Bool) :
    (∃ later, scan s asciiOnly = .closing name :: later) ↔
      ((s.drop 2).take name.length).all Text.isAsciiLetter = true := by
  obtain ⟨blanks, letters, blanks', rest, rfl, hletters, hblanks, hblanks'⟩ :=
    Segment.exists_of_closesElement hcloses
  have hlong : ∀ n ∈ rawNames, n ≠ [] := by decide
  obtain ⟨letter, name', rfl⟩ := List.exists_cons_of_ne_nil (hlong name hname)
  -- What stands right after the slash tells whether a tag starts.
  have hbare : ∀ {c : Char} {t : Text}, Text.isAsciiLetter c = false →
      ¬∃ later, scan ('<' :: '/' :: c :: t) asciiOnly = .closing (letter :: name') :: later := by
    rintro c t hc ⟨later, hscan⟩
    obtain ⟨u, later', htext⟩ := exists_text_of_bare
      ((Segment.construct_eq_bare_iff ('/' :: c :: t)).2 ⟨rfl, hc⟩) asciiOnly
    cases htext.symm.trans hscan
  cases blanks with
  | cons b blanks =>
    have hcodes : ∀ n ∈ Text.blankCodes, Text.isAsciiLetter (Char.ofNat n) = false := by decide
    have hb : Text.isAsciiLetter b = false :=
      Text.forall_isBlank (P := fun c => Text.isAsciiLetter c = false) hcodes
        (hblanks b List.mem_cons_self)
    refine iff_of_false (hbare hb) ?_
    simp [hb]
  | nil =>
    have htake : (letters ++ (blanks' ++ '>' :: rest)).take (letter :: name').length = letters := by
      rw [hletters.length_eq, List.take_left]
    have hchars := isTagChar_of_sameLetter hname hletters
    rw [List.nil_append, List.drop_succ_cons, List.drop_succ_cons, List.drop_zero, htake,
      List.all_eq_true, ← Segment.lower_eq_iff hname hletters]
    cases letters with
    | nil => cases hletters
    | cons c letters =>
      cases hc : Text.isAsciiLetter c with
      | false =>
        refine iff_of_false (hbare hc) fun hlower => ?_
        have hall := (Segment.lower_eq_iff hname hletters).1 hlower c List.mem_cons_self
        rw [hc] at hall
        cases hall
      | true =>
        have hfirst : (c :: letters).head?.any Text.isAsciiLetter = true := hc
        have hclosed := Segment.construct_closing hfirst hchars hblanks' rest
        have hscan : ∃ later, scan ('<' :: '/' :: (c :: letters ++ (blanks' ++ '>' :: rest)))
            asciiOnly = .closing (Text.lower (c :: letters)) :: later := by
          refine ⟨(Segment.follow (.tag ('/' :: (c :: letters ++ blanks'))) rest).flatMap
            (Segment.tokens asciiOnly), ?_⟩
          rw [scan, segments, Segment.segmentsAfter_closed hclosed]
          show ofTag asciiOnly ('/' :: (c :: letters ++ blanks')) :: _ = _
          rw [ofTag_closing hchars hblanks']
          rfl
        obtain ⟨later, hscan⟩ := hscan
        rw [hscan]
        constructor
        · rintro ⟨later', heq⟩
          exact Token.closing.inj (List.cons.inj heq).1
        · intro hlower
          exact ⟨later, by rw [hlower]⟩

/-! ## (4) Raw elements among the tokens -/

/-- A segment gives at most one token. -/
theorem tokens_cases (asciiOnly : Bool) (segment : Segment) :
    segment.tokens asciiOnly = [] ∨ ∃ token, segment.tokens asciiOnly = [token] := by
  cases segment with
  | verbatim inside =>
    rw [Segment.tokens]
    split
    · exact .inl rfl
    · exact .inr ⟨_, rfl⟩
  | hidden s => exact .inl rfl
  | _ => exact .inr ⟨_, rfl⟩

variable {segs : List Segment} {token : Token} {before after : List Token}

/-- **A token among the tokens of segments** is the token of one of them. -/
theorem exists_of_flatMap_tokens
    (h : segs.flatMap (Segment.tokens asciiOnly) = before ++ token :: after) :
    ∃ segs' segment segs'', segs = segs' ++ segment :: segs'' ∧
      segment.tokens asciiOnly = [token] ∧ before = segs'.flatMap (Segment.tokens asciiOnly) ∧
      after = segs''.flatMap (Segment.tokens asciiOnly) := by
  induction segs generalizing before with
  | nil => simp at h
  | cons segment segs ih =>
    rw [List.flatMap_cons] at h
    -- A segment makes at most one token, so that the token found is all of its segment.
    rcases tokens_cases asciiOnly segment with hnone | ⟨first, hfirst⟩
    · rw [hnone, List.nil_append] at h
      obtain ⟨segs', found, segs'', rfl, hfound, rfl, rfl⟩ := ih h
      exact ⟨segment :: segs', found, segs'', rfl, hfound, by simp [hnone], rfl⟩
    · rw [hfirst, List.singleton_append] at h
      cases before with
      | nil =>
        obtain ⟨rfl, rfl⟩ := List.cons.inj h
        exact ⟨[], segment, segs, rfl, hfirst, rfl, rfl⟩
      | cons t before =>
        obtain ⟨rfl, hrest⟩ := List.cons.inj h
        obtain ⟨segs', found, segs'', rfl, hfound, rfl, rfl⟩ := ih hrest
        exact ⟨segment :: segs', found, segs'', rfl, hfound, by simp [hfirst], rfl⟩

/-- A token with a raw element's name opens that element. -/
theorem exists_of_rawName? {token : Token} {name : Text} (h : token.rawName? = some name) :
    name ∈ rawNames ∧ ∃ attributes, token = .opening name attributes := by
  cases token with
  | opening n attributes =>
    rw [rawName?] at h
    split at h
    · rename_i hraw
      obtain rfl := Option.some.inj h
      exact ⟨by simpa using hraw, attributes, rfl⟩
    · cases h
  | _ => cases h

/-- Whether a tag opens a raw element does not depend on how its attributes are decoded. -/
theorem rawName?_ofTag (asciiOnly : Bool) (inside : Text) :
    Segment.rawName? (.tag inside) = (ofTag asciiOnly inside).rawName? := by
  show (ofTag false inside).rawName? = _
  unfold ofTag
  split
  · rfl
  · dsimp only
    split
    · rfl
    · split_ifs <;> rfl

/-- The tokens of raw content. -/
theorem tokens_unlessEmpty_raw (asciiOnly : Bool) (s : Text) :
    (Segment.unlessEmpty .raw s).flatMap (Segment.tokens asciiOnly) = ofText s := by
  unfold Segment.unlessEmpty ofText
  split <;> rfl

/-- **A raw element among the tokens of a chapter.** Behind its opening tag come its content, as one
text unless it is empty, and the tokens of the text from its closing tag, if there is one. -/
theorem exists_of_scan {attributes : List Attribute} (hname : name ∈ rawNames)
    (h : scan markup asciiOnly = before ++ .opening name attributes :: after) :
    ∃ content rest, content ++ rest <:+ markup ∧
      after = ofText content ++ scan rest asciiOnly ∧
      (rest = [] ∨ Segment.closesElement name rest = true) := by
  obtain ⟨segs', segment, segs'', hsegs, htoken, -, rfl⟩ := exists_of_flatMap_tokens h
  obtain ⟨inside, rfl⟩ : ∃ inside, segment = .tag inside := by
    cases segment with
    | tag inside => exact ⟨inside, rfl⟩
    | verbatim inside =>
      rw [Segment.tokens] at htoken
      split at htoken <;> cases htoken
    | _ => cases htoken
  obtain ⟨start, rest, rfl, -, rfl⟩ := Segment.cut_of_segmentsAfter hsegs
  have htag : ofTag asciiOnly inside = .opening name attributes := (List.cons.inj htoken).1
  have hraw : Segment.rawName? (.tag inside) = some name := by
    rw [rawName?_ofTag asciiOnly, htag, rawName?, if_pos (by simpa using hname)]
  have hsplit : (Segment.tag inside).splitContent rest = Segment.splitRaw name rest := by
    rw [Segment.splitContent, hraw]
  obtain ⟨hcontent, hcloses⟩ := Segment.splitRaw_spec name rest
  refine ⟨(Segment.splitRaw name rest).1, (Segment.splitRaw name rest).2, ?_, ?_, hcloses⟩
  · rw [hcontent]
    exact List.suffix_append start rest
  · rw [Segment.follow, hsplit, List.flatMap_append, tokens_unlessEmpty_raw]
    rfl

end Token

end ChapterLayout
