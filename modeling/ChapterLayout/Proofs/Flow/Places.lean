import Mathlib.Data.List.Forall2
import ChapterLayout.Proofs.Flow.Nesting

/-! # Places and the characters of lines

A line that is made up of characters starts with the indentation at the first of them:

* **`Place`**, **`Place.indent`** — the elements around a place in the tokens, and the indentation;
* **`Place.ancestors_afterAll`** — behind well-nested tokens the same elements are open;
* **`Glyph`**, **`Glyph.Fills`** — characters with their places, and whether they make up a line;
* **`LineHolds`** — what a line that is being filled is made up of, before its last word and in it;
* **`LineHolds.append`**, **`LineHolds.move`** — the word gets longer, or moves to the next line. -/

namespace ChapterLayout

/-! ## (1) Places -/

/-- Whether a role is that of a list. -/
def TagRole.isList : TagRole → Bool
  | .list _ => true
  | _ => false

/-- Whether a role is that of an element within a line, or of a block that does nothing but begin a
line and indent it. -/
def TagRole.isFlowing : TagRole → Bool
  | .list _ => true
  | .quote => true
  | .code => true
  | .description => true
  | .paragraph => true
  | .block => true
  | .inline => true
  | _ => false

/-- Text, tags of elements within a line and of blocks that do nothing but begin a line and indent
it, none of whose classes opens a title, and elements that lay out nothing. -/
def Token.IsFlowing (settings : Settings) : Token → Prop
  | .text _ => True
  | .opening name attributes =>
    (TagRole.ofName name).isFlowing = true ∧ Flow.opensTitle settings attributes = false
  | .closing name => (TagRole.ofName name).isFlowing = true
  | .empty name _ => name ≠ "img".toList ∧ name ≠ "hr".toList

instance (settings : Settings) (token : Token) : Decidable (token.IsFlowing settings) :=
  match token with
  | .text _ => inferInstanceAs (Decidable True)
  | .opening _ _ => inferInstanceAs (Decidable (_ ∧ _))
  | .closing _ => inferInstanceAs (Decidable (_ = _))
  | .empty _ _ => inferInstanceAs (Decidable (_ ∧ _))

/-- A place in the tokens. -/
structure Place where
  /-- The roles of the elements around it, the innermost first. -/
  ancestors : List TagRole := []
  /-- Whether the last tag of a definition before it is an opening one. -/
  inDescription : Bool := false
  deriving DecidableEq, Repr

namespace Place

/-- The place in an element of a role. -/
def enter (place : Place) (role : TagRole) : Place :=
  ⟨role :: place.ancestors, place.inDescription || role == .description⟩

/-- The place behind an element of a role. -/
def leave (place : Place) (role : TagRole) : Place :=
  ⟨place.ancestors.tail, place.inDescription && role != .description⟩

/-- The place behind a token. -/
def after (place : Place) : Token → Place
  | .opening name _ => place.enter (TagRole.ofName name)
  | .closing name => place.leave (TagRole.ofName name)
  | _ => place

/-- The place behind tokens. -/
def afterAll (place : Place) (tokens : List Token) : Place := tokens.foldl after place

/-- The indentation at a place: a bar for every quotation around it and the rest of their
indentation, the indentation of every list, and that of a definition. -/
def indent (typography : Typography) (place : Place) : Text :=
  (if .quote ∈ place.ancestors then
      (List.replicate (place.ancestors.count .quote) BlockContext.quoteBar).flatten ++
        Text.spaces (typography.indentSize - 2)
    else []) ++
  Text.spaces (typography.listIndent * place.ancestors.countP TagRole.isList) ++
  (if place.inDescription then Text.spaces typography.indentSize else [])

/-- Whether a definition is noted as open just if one is around the place. -/
def Scoped (place : Place) : Prop :=
  place.inDescription = place.ancestors.contains .description

/-- Whether a token opens no definition in another one. -/
def opensApart (place : Place) : Token → Bool
  | .opening name _ =>
    TagRole.ofName name != .description || !place.ancestors.contains .description
  | _ => true

/-- Whether no definition is opened in another one. -/
def descriptionsApart (place : Place) : List Token → Bool
  | [] => true
  | token :: tokens => place.opensApart token && (place.after token).descriptionsApart tokens

variable {place : Place} {role : TagRole}

/-- A definition is still noted rightly inside an element. -/
theorem Scoped.enter (h : place.Scoped) (role : TagRole) : (place.enter role).Scoped := by
  rw [Scoped, Place.enter, List.contains_cons, h, Bool.or_comm, Bool.beq_comm]

/-- A definition is still noted rightly behind an element, unless it lies in another definition. -/
theorem Scoped.leave {outer : List TagRole} (h : place.Scoped)
    (hinside : place.ancestors = role :: outer)
    (hapart : (role != .description || !outer.contains .description) = true) :
    (place.leave role).Scoped := by
  rw [Scoped, hinside, List.contains_cons] at h
  rw [Scoped, Place.leave, hinside, h]
  by_cases hrole : role = .description
  · simp_all
  · rw [beq_false_of_ne (Ne.symm hrole), bne_iff_ne.2 hrole, Bool.false_or, Bool.and_true,
      List.tail_cons]

/-- Definitions lie apart in a text just if they do in its first part and then in its second one. -/
theorem descriptionsApart_append (place : Place) (s t : List Token) :
    place.descriptionsApart (s ++ t) =
      (place.descriptionsApart s && (place.afterAll s).descriptionsApart t) := by
  induction s generalizing place with
  | nil => rfl
  | cons token tokens ih =>
    rw [List.cons_append, descriptionsApart, descriptionsApart, ih, Bool.and_assoc]
    rfl

/-- Behind well-nested tokens the same elements are open as before them. -/
theorem ancestors_afterAll {tokens : List Token} (h : Token.Nested tokens) (place : Place) :
    (place.afterAll tokens).ancestors = place.ancestors := by
  induction h generalizing place with
  | nil => rfl
  | text s rest ih => exact ih place
  | empty name attributes rest ih => exact ih place
  | element name attributes inner rest ihInner ihRest =>
    rename_i content tokens
    rw [afterAll, List.foldl_cons, List.foldl_append, List.foldl_cons]
    exact (ihRest _).trans (congrArg List.tail (ihInner (place.enter (TagRole.ofName name))))

end Place

/-! ## (2) Characters -/

/-- A character that is laid out, with its place. -/
structure Glyph where
  char : Char
  place : Place
  deriving DecidableEq, Repr

namespace Glyph

/-- The characters of a text at a place. -/
def ofText (place : Place) (s : Text) : List Glyph := s.map (⟨·, place⟩)

/-- Whether a text starts with the first of certain characters and holds them all, in order, with
nothing but spaces between them. -/
def Spells (s chars : Text) : Prop :=
  s.head? = chars.head? ∧ (s.filter fun c => !Text.isSpace c) = chars

/-- Whether a line starts with the indentation at its first character, directly followed by that
character, and holds the given characters behind its indentation. -/
def Fills (settings : Settings) (line : Line) : List Glyph → Prop
  | [] => False
  | first :: others => ∃ s, line = first.place.indent settings.typography ++ s ∧
      Spells s ((first :: others).map Glyph.char)

variable {s t chars word : Text} {place : Place}

/-- The characters of a text at a place are the text. -/
@[simp] theorem map_char_ofText (place : Place) (s : Text) :
    (ofText place s).map Glyph.char = s := by
  rw [ofText, List.map_map]
  exact List.map_id _

/-- A text at a place is its parts at that place. -/
theorem ofText_append (place : Place) (s t : Text) :
    ofText place (s ++ t) = ofText place s ++ ofText place t := List.map_append

/-- All characters of a text have its place. -/
theorem place_of_mem_ofText {glyph : Glyph} (h : glyph ∈ ofText place s) : glyph.place = place := by
  obtain ⟨c, -, rfl⟩ := List.mem_map.1 h
  rfl

/-- No characters are spelled by no text. -/
theorem spells_nil : Spells [] [] := ⟨rfl, rfl⟩

/-- A word is put behind the text. -/
theorem Spells.append_word (h : Spells s chars) (hword : ∀ c ∈ word, Text.isSpace c = false) :
    Spells (s ++ word) (chars ++ word) := by
  obtain ⟨hhead, hfilter⟩ := h
  refine ⟨by rw [List.head?_append, List.head?_append, hhead], ?_⟩
  have hall : (word.filter fun c => !Text.isSpace c) = word :=
    List.filter_eq_self.2 fun c hc => by simp [hword c hc]
  rw [List.filter_append, hfilter, hall]

/-- What spells characters is not empty. -/
theorem Spells.ne_nil (h : Spells s chars) (hne : chars ≠ []) : s ≠ [] := by
  rintro rfl
  exact hne h.2.symm

/-- Spaces behind the text do not count. -/
theorem Spells.append_spaces (h : Spells s chars) (hne : chars ≠ [])
    (hspaces : ∀ c ∈ t, Text.isSpace c = true) : Spells (s ++ t) chars := by
  have hnone : (t.filter fun c => !Text.isSpace c) = [] :=
    List.filter_eq_nil_iff.2 fun c hc => by simp [hspaces c hc]
  refine ⟨?_, ?_⟩
  · rw [List.head?_append_of_ne_nil _ (h.ne_nil hne)]
    exact h.1
  · rw [List.filter_append, hnone, List.append_nil]
    exact h.2

/-- Neither do they when they are trimmed. -/
theorem Spells.trimRight (h : Spells s chars) (hne : chars ≠ []) :
    Spells (Text.trimRight Text.isSpace s) chars := by
  obtain ⟨blanks, hs, hblanks⟩ := Text.exists_trimRight_append s
  have hnone : (blanks.filter fun c => !Text.isSpace c) = [] :=
    List.filter_eq_nil_iff.2 fun c hc => by simp [hblanks c hc]
  obtain ⟨hhead, hfilter⟩ := h
  rw [hs, List.filter_append, hnone, List.append_nil] at hfilter
  have htrim : Text.trimRight Text.isSpace s ≠ [] := by
    intro hnil
    rw [hnil] at hfilter
    exact hne hfilter.symm
  rw [hs, List.head?_append_of_ne_nil _ htrim] at hhead
  exact ⟨hhead, hfilter⟩

/-- Only what stands behind the indentation is trimmed. -/
theorem Spells.trimRight_append (h : Spells s chars) (hne : chars ≠ []) (t : Text) :
    Text.trimRight Text.isSpace (t ++ s) = t ++ Text.trimRight Text.isSpace s := by
  have hsome : s.reverse.dropWhile Text.isSpace ≠ [] := by
    intro hnil
    have hall := List.dropWhile_eq_nil_iff.1 hnil
    refine hne (h.2.symm.trans (List.filter_eq_nil_iff.2 fun c hc => ?_))
    simp [hall c (List.mem_reverse.2 hc)]
  have hdrop : ((s.reverse.dropWhile Text.isSpace).isEmpty) = false := by simpa using hsome
  rw [Text.trimRight, Text.trimRight, List.reverse_append, List.dropWhile_append, hdrop,
    if_neg (by decide), List.reverse_append, List.reverse_reverse]

/-- A line that is filled has text. -/
theorem Fills.ne_nil {settings : Settings} {line : Line} {glyphs : List Glyph}
    (h : Fills settings line glyphs) : line ≠ [] := by
  cases glyphs with
  | nil => exact h.elim
  | cons first others =>
    obtain ⟨s, rfl, hs⟩ := h
    exact List.append_ne_nil_of_right_ne_nil _ (hs.ne_nil (List.cons_ne_nil _ _))

end Glyph

/-! ## (3) The line that is being filled -/

/-- What a line that holds a word is made up of: the characters before its last word, and those of
the last word, all of them at places with one indentation. -/
structure LineHolds (typography : Typography) (indent current continuation : Text)
    (wordStart : Nat) (movable : Bool) (before word : List Glyph) : Prop where
  wraps : continuation = indent
  indents : ∀ glyph ∈ before ++ word, glyph.place.indent typography = indent
  start : ∃ s, current.take wordStart = indent ++ s ∧ Glyph.Spells s (before.map Glyph.char)
  last : current.drop wordStart = word.map Glyph.char
  last_ne_nil : word ≠ []
  letters : ∀ c ∈ word.map Glyph.char, Text.isSpace c = false
  backed : movable = true → before ≠ []

section LineHolds

variable {settings : Settings} {typography : Typography} {indent current continuation s : Text}
  {wordStart : Nat} {movable : Bool} {before word more : List Glyph} {line : Line}

/-- A text behind the indentation of its characters. -/
theorem Glyph.fills_of_spells {glyphs : List Glyph} (hne : glyphs ≠ [])
    (hindent : ∀ glyph ∈ glyphs, glyph.place.indent settings.typography = indent)
    (hline : line = indent ++ s) (hs : Spells s (glyphs.map Glyph.char)) :
    Fills settings line glyphs := by
  cases glyphs with
  | nil => exact absurd rfl hne
  | cons first others =>
    refine ⟨s, ?_, hs⟩
    rw [hindent first List.mem_cons_self]
    exact hline

/-- The line is made up of the characters before its last word and those of that word. -/
theorem LineHolds.fills
    (h : LineHolds settings.typography indent current continuation wordStart movable before word) :
    Glyph.Fills settings current (before ++ word) := by
  obtain ⟨s, hs, hspells⟩ := h.start
  have hcurrent : current = indent ++ (s ++ word.map Glyph.char) := by
    rw [← List.append_assoc, ← hs, ← h.last, List.take_append_drop]
  refine Glyph.fills_of_spells (List.append_ne_nil_of_right_ne_nil _ h.last_ne_nil) h.indents
    hcurrent ?_
  rw [List.map_append]
  exact hspells.append_word h.letters

/-- The line before a word that moves is made up of the characters before it. -/
theorem LineHolds.fills_before
    (h : LineHolds settings.typography indent current continuation wordStart movable before word)
    (hmovable : movable = true) :
    Glyph.Fills settings (Text.trimRight Text.isSpace (current.take wordStart)) before := by
  obtain ⟨s, hs, hspells⟩ := h.start
  have hne := h.backed hmovable
  have hchars : before.map Glyph.char ≠ [] := by simpa using hne
  refine Glyph.fills_of_spells hne (fun glyph hg => h.indents glyph (List.mem_append_left _ hg)) ?_
    (hspells.trimRight hchars)
  rw [hs, hspells.trimRight_append hchars]

/-- The last word starts within the line. -/
theorem LineHolds.start_le
    (h : LineHolds typography indent current continuation wordStart movable before word) :
    wordStart ≤ current.length := by
  by_contra hlt
  have hnil : current.drop wordStart = [] := List.drop_eq_nil_of_le (by omega)
  exact h.last_ne_nil (List.map_eq_nil_iff.1 (h.last.symm.trans hnil))

/-- More of the last word is put at the end of the line. -/
theorem LineHolds.append
    (h : LineHolds typography indent current continuation wordStart movable before word)
    (hindent : ∀ glyph ∈ more, glyph.place.indent typography = indent)
    (hletters : ∀ c ∈ more.map Glyph.char, Text.isSpace c = false) :
    LineHolds typography indent (current ++ more.map Glyph.char) continuation wordStart movable
      before (word ++ more) where
  wraps := h.wraps
  indents glyph hg := by
    rw [← List.append_assoc] at hg
    exact (List.mem_append.1 hg).elim (h.indents glyph) (hindent glyph)
  start := by
    rw [List.take_append_of_le_length h.start_le]
    exact h.start
  last := by rw [List.drop_append_of_le_length h.start_le, h.last, List.map_append]
  last_ne_nil := List.append_ne_nil_of_left_ne_nil h.last_ne_nil _
  letters c hc := by
    rw [List.map_append] at hc
    exact (List.mem_append.1 hc).elim (h.letters c) (hletters c)
  backed := h.backed

/-- The last word stands alone on the next line. -/
theorem LineHolds.move
    (h : LineHolds typography indent current continuation wordStart movable before word) :
    LineHolds typography indent (continuation ++ current.drop wordStart) continuation
      continuation.length false [] word where
  wraps := h.wraps
  indents glyph hg := h.indents glyph (List.mem_append_right _ hg)
  start := by
    rw [List.take_left, h.wraps]
    exact ⟨[], (List.append_nil _).symm, Glyph.spells_nil⟩
  last := by rw [List.drop_left, h.last]
  last_ne_nil := h.last_ne_nil
  letters := h.letters
  backed hm := nomatch hm

end LineHolds

/-- The lines of a page that have text. -/
def textLines (lines : List Line) : List Line := lines.filter fun line => !line.isEmpty

/-- The lines with text are those of the first lines and then those of the others. -/
theorem textLines_append (lines more : List Line) :
    textLines (lines ++ more) = textLines lines ++ textLines more := List.filter_append ..

/-- Blank lines have no text. -/
theorem textLines_blanks {lines : List Line} (h : ∀ line ∈ lines, line = []) :
    textLines lines = [] :=
  List.filter_eq_nil_iff.2 fun line hline => by simp [h line hline]

/-- A line that is filled is put on the page. -/
theorem forall₂_fills_push {settings : Settings} {lines : List Line} {chunks : List (List Glyph)}
    {line : Line} {held : List Glyph}
    (h : List.Forall₂ (Glyph.Fills settings) (textLines lines) chunks)
    (hline : Glyph.Fills settings line held) :
    List.Forall₂ (Glyph.Fills settings) (textLines (lines ++ [line])) (chunks ++ [held]) := by
  have hsome : textLines [line] = [line] :=
    List.filter_eq_self.2 fun other hother => by
      simp [List.mem_singleton.1 hother, hline.ne_nil]
  rw [textLines_append, hsome]
  exact List.rel_append h (.cons hline .nil)

end ChapterLayout
