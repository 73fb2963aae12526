import ChapterLayout.Markup.Token

/-! # Segments of a chapter

A chapter is cut into consecutive segments, and every segment gives at most one token:

* character data gives a text token with its references decoded;
* a comment, a declaration or a processing instruction gives none;
* a character data section gives its content as it stands;
* a tag gives its token;
* the content of a script or a style sheet, up to its closing tag, gives a text token as it stands.

No chapter is refused. An angle bracket that starts no tag is character data, and so is everything
from a construct that is never closed. `segments` cuts, `Segment.source` is the text a segment was
cut from, and `Token.scan` lists the tokens. -/

namespace ChapterLayout

/-- A consecutive piece of a chapter. -/
inductive Segment where
  /-- Character data. -/
  | text (s : Text)
  /-- A comment, a declaration or a processing instruction, with its brackets. -/
  | hidden (s : Text)
  /-- The content of a character data section. -/
  | verbatim (inside : Text)
  /-- What stands between the brackets of a tag. -/
  | tag (inside : Text)
  /-- The content of an element whose content is not markup. -/
  | raw (s : Text)
  deriving DecidableEq, Repr

namespace Segment

/-- The text the segment was cut from. -/
def source : Segment → Text
  | .text s => s
  | .hidden s => s
  | .verbatim inside => "<![CDATA[".toList ++ inside ++ "]]>".toList
  | .tag inside => '<' :: inside ++ ['>']
  | .raw s => s

/-- The tokens of the segment. -/
def tokens (asciiOnly : Bool) : Segment → List Token
  | .text s => [.text (Entity.decode asciiOnly s)]
  | .hidden _ => []
  | .verbatim inside => if inside.isEmpty then [] else [.text inside]
  | .tag inside => [Token.ofTag asciiOnly inside]
  | .raw s => [.text s]

/-! ## The end of a tag -/

/-- Where a tag ends. -/
inductive TagEnd where
  /-- At a bracket: the text before it and the text after it. -/
  | closed (inside rest : Text)
  /-- Nowhere, and a quote is open at the end of the text. -/
  | openQuote
  /-- Nowhere, and no quote is open. -/
  | missing

/-- The same end with one more character before it. -/
def TagEnd.cons (c : Char) : TagEnd → TagEnd
  | .closed inside rest => .closed (c :: inside) rest
  | e => e

/-- The last character that is no blank of a tag, after one more character. -/
def lastVisible (last c : Char) : Char :=
  if c == ' ' || c == '\t' || c == '\r' || c == '\n' then last else c

/-- The end of a tag: the first closing bracket outside quotes. A quote counts only as the start of
a value, that is when `last`, the last visible character before it, is an equals sign. `quote` is
the quote that is open. -/
def tagEnd : (quote : Option Char) → (last : Char) → Text → TagEnd
  | none, _, [] => .missing
  | some _, _, [] => .openQuote
  | some quote, last, c :: s =>
    (tagEnd (if c == quote then none else some quote) (lastVisible last c) s).cons c
  | none, last, c :: s =>
    if c == '>' then .closed [] s
    else
      let quote := if (c == '"' || c == '\x27') && last == '=' then some c else none
      (tagEnd quote (lastVisible last c) s).cons c

/-- What stands between the brackets of a tag, from its text after the opening bracket, and the
rest. If a quote is never closed, the first closing bracket ends the tag. -/
def tagInside? (s : Text) : Option (Text × Text) :=
  match tagEnd none '<' s with
  | .closed inside rest => some (inside, rest)
  | .openQuote => Text.splitAtFirst ['>'] s
  | .missing => none

/-! ## Constructs -/

/-- What an opening angle bracket starts. -/
inductive Construct where
  /-- A segment that ends before the given rest. -/
  | closed (segment : Segment) (rest : Text)
  /-- A construct that is never closed. -/
  | unclosed
  /-- Nothing: the bracket is character data. -/
  | bare

/-- Whether a tag starts with this text after its bracket: a letter, or a slash and a letter. -/
def startsTag : Text → Bool
  | '/' :: c :: _ => Text.isAsciiLetter c
  | c :: _ => Text.isAsciiLetter c
  | [] => false

/-- The construct whose opening mark is followed by `s` and which ends at the first `close`. -/
def Construct.upTo (close : Text) (segment : Text → Segment) (s : Text) : Construct :=
  match Text.splitAtFirst close s with
  | some (inside, rest) => .closed (segment inside) rest
  | none => .unclosed

/-- The construct that an opening angle bracket starts, from the text after it. -/
def construct (s : Text) : Construct :=
  if "!--".toList.isPrefixOf s then
    .upTo "-->".toList (fun inside => .hidden ("<!--".toList ++ inside ++ "-->".toList)) (s.drop 3)
  else if "![CDATA[".toList.isPrefixOf s then .upTo "]]>".toList .verbatim (s.drop 8)
  else if "!".toList.isPrefixOf s || "?".toList.isPrefixOf s then
    .upTo ['>'] (fun inside => .hidden ('<' :: inside ++ ['>'])) s
  else if startsTag s then
    match tagInside? s with
    | some (inside, rest) => .closed (.tag inside) rest
    | none => .unclosed
  else .bare

/-! ## Raw content -/

/-- The rest of the text after the letters of `name`, in either case. -/
def dropName? : (name : Text) → Text → Option Text
  | [], s => some s
  | _ :: _, [] => none
  | letter :: name, c :: s => if Text.sameLetter letter c then dropName? name s else none

/-- Whether the text starts with the closing tag of the element called `name`. Blanks may stand on
both sides of the name. -/
def closesElement (name : Text) : Text → Bool
  | '<' :: '/' :: s =>
    match dropName? name (Text.trimLeft Text.isBlank s) with
    | some s => (Text.trimLeft Text.isBlank s).head? == some '>'
    | none => false
  | _ => false

/-- The text up to the closing tag of the element called `name`, and the text from it. -/
def splitRaw (name : Text) : Text → Text × Text
  | [] => ([], [])
  | c :: s =>
    if closesElement name (c :: s) then ([], c :: s)
    else
      let (content, rest) := splitRaw name s
      (c :: content, rest)

/-- A segment of the given kind, unless it is empty. -/
def unlessEmpty (segment : Text → Segment) (s : Text) : List Segment :=
  if s.isEmpty then [] else [segment s]

/-- The name of the element with raw content that the segment opens, if it opens one. -/
def rawName? : Segment → Option Text
  | .tag inside => (Token.ofTag false inside).rawName?
  | _ => none

/-! ## Lengths -/

/-- What is left behind a tag is shorter than what it was read from. -/
theorem tagEnd_length {s inside rest : Text} {quote : Option Char} {last : Char}
    (h : tagEnd quote last s = .closed inside rest) : rest.length < s.length := by
  induction s generalizing quote last inside with
  | nil => cases quote <;> simp [tagEnd] at h
  | cons c s ih =>
    have step {q : Option Char} {l : Char} (h : (tagEnd q l s).cons c = .closed inside rest) :
        rest.length < (c :: s).length := by
      cases hs : tagEnd q l s with
      | closed i r =>
        rw [hs] at h
        simp only [TagEnd.cons, TagEnd.closed.injEq] at h
        obtain ⟨_, rfl⟩ := h
        have := ih hs
        rw [List.length_cons]; omega
      | openQuote => simp [hs, TagEnd.cons] at h
      | missing => simp [hs, TagEnd.cons] at h
    cases quote with
    | none =>
      simp only [tagEnd] at h
      split at h
      · simp only [TagEnd.closed.injEq] at h
        simp [← h.2]
      · exact step h
    | some q => exact step h

/-- What is left behind a construct is no longer than what it was read from. -/
theorem construct_length {s rest : Text} {segment : Segment}
    (h : construct s = .closed segment rest) : rest.length ≤ s.length := by
  have upTo {close t : Text} {f : Text → Segment}
      (ht : t.length ≤ s.length) (h : Construct.upTo close f t = .closed segment rest) :
      rest.length ≤ s.length := by
    unfold Construct.upTo at h
    split at h
    · next hs =>
      simp only [Construct.closed.injEq] at h
      have := Attribute.splitAtFirst_length hs
      rw [← h.2]; omega
    · simp at h
  unfold construct at h
  split at h
  · exact upTo (by simp) h
  split at h
  · exact upTo (by simp) h
  split at h
  · exact upTo (Nat.le_refl _) h
  split at h
  -- A tag ends at the bracket that is found outside quotes, or at the first one if a quote is open.
  · split at h
    · next ht =>
      simp only [Construct.closed.injEq] at h
      rw [← h.2]
      unfold tagInside? at ht
      split at ht
      · next he =>
        simp only [Option.some.injEq, Prod.mk.injEq] at ht
        have := tagEnd_length he
        rw [← ht.2]; omega
      · exact Attribute.splitAtFirst_length ht
      · simp at ht
    · simp at h
  · simp at h

/-- What is left behind raw text is no longer than what it was read from. -/
theorem splitRaw_length (name s : Text) : (splitRaw name s).2.length ≤ s.length := by
  induction s with
  | nil => simp [splitRaw]
  | cons c s ih =>
    unfold splitRaw
    split
    · simp
    · simp only [List.length_cons]; omega

end Segment

/-! ## Cutting a chapter -/

/-- The segments of a chapter of which the character data `before`, reversed, is already read. -/
def segmentsAfter (before : Text) : Text → List Segment
  | [] => Segment.unlessEmpty .text before.reverse
  | c :: s =>
    if c = '<' then
      match h : Segment.construct s with
      | .closed segment rest =>
        have := Segment.construct_length h
        Segment.unlessEmpty .text before.reverse ++ segment ::
          match segment.rawName? with
          | some name =>
            have := Segment.splitRaw_length name rest
            Segment.unlessEmpty .raw (Segment.splitRaw name rest).1 ++
              segmentsAfter [] (Segment.splitRaw name rest).2
          | none => segmentsAfter [] rest
      | .unclosed => [.text (before.reverse ++ c :: s)]
      | .bare => segmentsAfter (c :: before) s
    else segmentsAfter (c :: before) s
termination_by s => s.length

/-- The consecutive segments of a chapter. -/
def segments (chapter : Text) : List Segment := segmentsAfter [] chapter

/-- The tokens of a chapter in order. If `asciiOnly` holds, numeric references beyond ASCII are
dropped. -/
def Token.scan (chapter : Text) (asciiOnly : Bool := false) : List Token :=
  (segments chapter).flatMap (Segment.tokens asciiOnly)

end ChapterLayout
