import ChapterLayout.Proofs.Flow.WordMarks
import ChapterLayout.Proofs.Style.Clamp
import ChapterLayout.Proofs.Style.Merge

/-! # Records in their lines

A span, link or image is recorded over columns of a line that may still be growing. What is recorded
stays inside its line, since a line is only ever put on the page as it stands or with more text, and
a word that moves takes its records along. Two kinds of spans are the exceptions: a blank line of a
title is highlighted, over no column, and removed if it is at the end of the page; and the marker of
an item that is begun in preformatted text, where no line is open, is written over:

* **`Places`** — whether records stand over lines of a page, or over the first columns of the next
  one;
* **`Flow.InBounds`** — what a state promises about its records;
* **`Flow.run_inBounds`** — all links and images of a layout are in bounds, and so are its
  highlights, up to those exceptions. -/

namespace ChapterLayout

/-! ## (1) Records over lines -/

/-- Whether a record has a column, and stands inside a line of the given length. -/
def Within {ρ : Type} [Positioned ρ] (length : Nat) (r : ρ) : Prop :=
  0 ≤ Positioned.startCol r ∧ Positioned.startCol r < Positioned.endCol r ∧
    Positioned.endCol r ≤ length

/-- The records of a kind that need not stand inside their lines. -/
structure Lenience (ρ : Type) where
  /-- Those that may stand, over no column, on a blank line. -/
  blank : ρ → Prop
  /-- Those of which nothing is promised. -/
  lost : ρ → Prop

/-- Every record has to stand inside its line. -/
def Lenience.strict (ρ : Type) : Lenience ρ := ⟨fun _ => False, fun _ => False⟩

/-- Titles may be blank, and if `mayLose` holds, markers of items may be lost. -/
def Lenience.spans (mayLose : Prop) : Lenience Span :=
  ⟨fun s => s.group = Group.title, fun s => mayLose ∧ s.group = Group.listItem⟩

/-- Whether a record stands over a line, or over no column of a blank one that it may stand on. -/
def Lenience.Fits {ρ : Type} [Positioned ρ] (lenience : Lenience ρ) (line : Line) (r : ρ) : Prop :=
  Within line.length r ∨
    line = [] ∧ lenience.blank r ∧ Positioned.startCol r = 0 ∧ Positioned.endCol r = 0

/-- Whether records stand over the lines of a page, or over the first columns of the next line. -/
def Places {ρ : Type} [Positioned ρ] (lines : List Line) (lenience : Lenience ρ) (cols : Nat)
    (records : List ρ) : Prop :=
  ∀ r ∈ records, lenience.lost r ∨
    (∃ (n : Nat) (line : Line), Positioned.line r = n ∧ lines[n]? = some line ∧
      lenience.Fits line r) ∨
    Positioned.line r = lines.length ∧ Within cols r

section Records

variable {ρ : Type} [Positioned ρ] {lines : List Line} {line : Line} {lenience : Lenience ρ}
  {cols cols' : Nat} {records more : List ρ} {r : ρ}

/-- A record inside a line stands inside a longer one. -/
theorem Within.mono (h : Within cols r) (hle : cols ≤ cols') : Within cols' r := by
  obtain ⟨hstart, hcols, hend⟩ := h
  exact ⟨hstart, hcols, by omega⟩

/-- No record stands inside an empty line. -/
theorem not_within_zero (h : Within 0 r) : False := by
  obtain ⟨hstart, hcols, hend⟩ := h
  omega

/-- Without records nothing has to hold. -/
theorem places_nil (lines : List Line) (lenience : Lenience ρ) (cols : Nat) :
    Places lines lenience cols [] := fun _ hr => absurd hr List.not_mem_nil

/-- Some of the records stand where all do. -/
theorem Places.subset (h : Places lines lenience cols records) (hsub : more ⊆ records) :
    Places lines lenience cols more := fun r hr => h r (hsub hr)

/-- Records of two lists stand where both do. -/
theorem Places.append (h : Places lines lenience cols records)
    (hmore : Places lines lenience cols more) : Places lines lenience cols (records ++ more) :=
  fun r hr => (List.mem_append.1 hr).elim (h r) (hmore r)

/-- A record on the line that is being filled. -/
theorem places_next (h : Positioned.line r = lines.length) (hr : Within cols r) :
    Places lines lenience cols [r] := fun _ hmem => List.mem_singleton.1 hmem ▸ .inr (.inr ⟨h, hr⟩)

/-- The next line gets longer. -/
theorem Places.mono (h : Places lines lenience cols records) (hle : cols ≤ cols') :
    Places lines lenience cols' records :=
  fun r hr => (h r hr).imp_right (Or.imp_right fun ⟨hline, hcols⟩ => ⟨hline, hcols.mono hle⟩)

/-- The next line is put on the page. -/
theorem Places.push (h : Places lines lenience cols records) (hle : cols ≤ line.length) :
    Places (lines ++ [line]) lenience 0 records := by
  intro r hr
  rcases h r hr with hlost | ⟨n, old, hn, hold, hfits⟩ | ⟨hline, hcols⟩
  · exact .inl hlost
  · refine .inr (.inl ⟨n, old, hn, ?_, hfits⟩)
    rw [List.getElem?_append_left (List.getElem?_eq_some_iff.1 hold).1]
    exact hold
  · refine .inr (.inl ⟨lines.length, line, hline, ?_, .inl (hcols.mono hle)⟩)
    rw [List.getElem?_append_right (Nat.le_refl _), Nat.sub_self]
    rfl

/-- **Records behind the next line's columns** move to the line after it. -/
theorem Places.relocate (h : Places lines lenience cols records) {start : Nat} (before : Nat)
    (hfrom : StartFrom records lines.length start) {relocated : ρ → ρ}
    (hmove : Relocates relocated ((lines.length : Int) + 1) ((before : Int) - start))
    (hlost : ∀ r, lenience.lost r → lenience.lost (relocated r)) (line : Line) :
    Places (lines ++ [line]) lenience (before + (cols - start)) (records.map relocated) := by
  intro r' hr'
  obtain ⟨r, hr, rfl⟩ := List.mem_map.1 hr'
  obtain ⟨hline, hstart⟩ := hfrom r hr
  obtain ⟨hline', hstart', hend'⟩ := hmove r
  rcases h r hr with hl | ⟨n, old, hn, hold, -⟩ | ⟨-, hzero, hcols, hend⟩
  · exact .inl (hlost r hl)
  · -- Lines of the page come before the line that the records are on.
    have hlt : n < lines.length := (List.getElem?_eq_some_iff.1 hold).1
    omega
  · refine .inr (.inr ⟨?_, ?_, ?_, ?_⟩)
    · rw [hline', List.length_append, List.length_singleton]
      rfl
    all_goals omega

end Records

/-- A title is highlighted over all of its line. -/
theorem places_title (lines : List Line) (line : Line) (mayLose : Prop) :
    Places (lines ++ [line]) (.spans mayLose) 0
      [(⟨lines.length, 0, line.length, Group.title⟩ : Span)] := by
  intro r hr
  obtain rfl := List.mem_singleton.1 hr
  refine .inr (.inl ⟨lines.length, line, rfl, ?_, ?_⟩)
  · rw [List.getElem?_append_right (Nat.le_refl _), Nat.sub_self]
    rfl
  · by_cases hnil : line = []
    · rw [hnil]
      exact .inr ⟨rfl, rfl, rfl, rfl⟩
    · have hpos : 0 < line.length := List.length_pos_iff.2 hnil
      exact .inl ⟨Int.le_refl _, Int.ofNat_lt.2 hpos, Int.le_refl _⟩

/-- A text that ends in a letter is not shortened when spaces behind it are trimmed. -/
theorem Text.length_le_trimRight_append {s : Text} {c : Char} (hc : s.getLast? = some c)
    (hletter : isSpace c = false) (t : Text) :
    s.length ≤ (trimRight isSpace (s ++ t)).length := by
  have hletterAt : LetterAt s (s.length - 1) :=
    ⟨c, List.getLast?_eq_getElem? ▸ hc, hletter⟩
  obtain ⟨d, hd, -⟩ := (hletterAt.append t).trimRight
  have hlt := (List.getElem?_eq_some_iff.1 hd).1
  omega

namespace Page

/-- Whether a record stands inside a line of a page. -/
def Holds {ρ : Type} [Positioned ρ] (page : Page) (r : ρ) : Prop :=
  ∃ (n : Nat) (line : Line), Positioned.line r = n ∧ page.lines[n]? = some line ∧
    0 ≤ Positioned.startCol r ∧ Positioned.startCol r ≤ Positioned.endCol r ∧
    Positioned.endCol r ≤ line.length

/-- Whether a span highlights a blank line of a title that was removed at the end of a page. -/
def RemovedTitle (page : Page) (s : Span) : Prop :=
  (page.lines.length : Int) ≤ s.line ∧ s.startCol = 0 ∧ s.endCol = 0 ∧ s.group = Group.title

end Page

namespace Flow

variable {settings : Settings} {flow flow' a b acted : Flow} {token : Token} {word s : Text}
  {group : Group} {mayLose : Prop}

/-! ## (2) What a state promises -/

/-- Whether the records of a state stand over the lines of its page or over the line that is being
filled. -/
structure Bounded (mayLose : Prop) (flow : Flow) : Prop where
  spans : Places flow.page.lines (.spans mayLose) flow.current.length flow.spans
  links : Places flow.page.lines (.strict Link) flow.current.length flow.page.links
  images : Places flow.page.lines (.strict Image) 0 flow.page.images

/-- Whether the records before the last word stand over the lines of the page or over the line
before that word. -/
def BoundedBefore (mayLose : Prop) (flow : Flow) : Prop :=
  Places flow.page.lines (.spans mayLose) flow.brokenLine.length
      (flow.spans.take flow.spanMark) ∧
    Places flow.page.lines (.strict Link) flow.brokenLine.length
      (flow.page.links.take flow.linkMark)

/-- Whether the records of a state stand inside their lines, and still do if its last word moves or
the line that is being filled is begun anew. -/
structure InBounds (mayLose : Prop) (flow : Flow) : Prop extends Bounded mayLose flow where
  before : flow.hasWords = true → flow.wordMovable = true → flow.BoundedBefore mayLose
  preLinks : flow.context.inPre = true → Places flow.page.lines (.strict Link) 0 flow.page.links
  preSpans : flow.context.inPre = true → flow.preLineOpen = false →
    Places flow.page.lines (.spans mayLose) 0 flow.spans

/-- All records stand over lines of the page. -/
theorem inBounds_of_page (hw : flow.hasWords = false)
    (hspans : Places flow.page.lines (.spans mayLose) 0 flow.spans)
    (hlinks : Places flow.page.lines (.strict Link) 0 flow.page.links)
    (himages : Places flow.page.lines (.strict Image) 0 flow.page.images) :
    flow.InBounds mayLose :=
  ⟨⟨hspans.mono (Nat.zero_le _), hlinks.mono (Nat.zero_le _), himages⟩,
    fun h => absurd h (by simp [hw]), fun _ => hlinks, fun _ _ => hspans⟩

/-- Nothing stands over a line that is empty. -/
theorem Bounded.page (h : flow.Bounded mayLose) (hnil : flow.current = []) :
    Places flow.page.lines (.spans mayLose) 0 flow.spans ∧
      Places flow.page.lines (.strict Link) 0 flow.page.links := by
  have hzero : flow.current.length = 0 := congrArg List.length hnil
  exact ⟨hzero ▸ h.spans, hzero ▸ h.links⟩

/-! ## (3) Lines that are put on the page -/

/-- The highlights of a line go to the page with it. -/
theorem places_commit_spans (flow : Flow)
    (h : Places flow.page.lines (.spans mayLose) flow.current.length flow.spans) :
    Places flow.commit.page.lines (.spans mayLose) 0 flow.commit.spans := by
  have hpush : Places (flow.page.lines ++ [flow.current]) (.spans mayLose) 0 flow.spans :=
    h.push (Nat.le_refl _)
  dsimp only [commit]
  split
  · exact hpush.append (places_title _ _ _)
  · exact hpush

/-- The records of a line go to the page with it. -/
theorem Bounded.commit (h : flow.Bounded mayLose) : flow.commit.InBounds mayLose :=
  inBounds_of_page rfl (places_commit_spans flow h.spans) (h.links.push (Nat.le_refl _))
    (h.images.push (Nat.zero_le _))

/-- A line is put on the page where none is being filled. -/
theorem Bounded.push {line : Line} (h : flow.Bounded mayLose) (hnil : flow.current = [])
    (hw : flow.hasWords = false) (hlines : flow'.page.lines = flow.page.lines ++ [line])
    (hspans : flow'.spans = flow.spans) (hlinks : flow'.page.links = flow.page.links)
    (himages : flow'.page.images = flow.page.images) (hw' : flow'.hasWords = flow.hasWords) :
    flow'.InBounds mayLose := by
  obtain ⟨hs, hl⟩ := h.page hnil
  refine inBounds_of_page (hw'.trans hw) ?_ ?_ ?_
  · rw [hlines, hspans]
    exact hs.push (Nat.zero_le _)
  · rw [hlines, hlinks]
    exact hl.push (Nat.zero_le _)
  · rw [hlines, himages]
    exact h.images.push (Nat.zero_le _)

/-- Behind the indentation of a line of its own there is something to highlight. -/
theorem takeWhile_isIndentChar_lt {c : Char} (hc : c ∈ s) (hchar : isIndentChar c = false) :
    (s.takeWhile isIndentChar).length < s.length := by
  refine Nat.lt_of_le_of_ne (List.takeWhile_sublist _).length_le fun heq => ?_
  have hall : s.takeWhile isIndentChar = s := (List.takeWhile_sublist _).eq_of_length heq
  rw [← hall] at hc
  exact absurd (List.mem_takeWhile_imp hc) (by simp [hchar])

/-- **A line of its own** is highlighted behind its indentation. -/
theorem Bounded.commitBlock (h : flow.Bounded mayLose) (hnil : flow.current = []) {c : Char}
    (hc : c ∈ s) (hchar : isIndentChar c = false) :
    (flow.commitBlock s group).InBounds mayLose := by
  obtain ⟨hs, hl⟩ := h.page hnil
  have hlt := takeWhile_isIndentChar_lt hc hchar
  have hbegun : Bounded mayLose
      (({ flow with current := s }).addSpan (s.takeWhile isIndentChar).length s.length group) := by
    refine ⟨(hs.mono (Nat.zero_le _)).append (places_next rfl ?_), hl.mono (Nat.zero_le _),
      h.images⟩
    exact ⟨Int.natCast_nonneg _, Int.ofNat_lt.2 hlt, Int.le_refl _⟩
  have hcommit := hbegun.commit
  exact ⟨⟨hcommit.spans, hcommit.links, hcommit.images⟩, hcommit.before, hcommit.preLinks,
    hcommit.preSpans⟩

/-- The label of an image is no indentation alone. -/
theorem exists_mem_imageLabel (alt : Text) : ∃ c ∈ imageLabel alt, isIndentChar c = false := by
  refine ⟨'[', ?_, by decide⟩
  unfold imageLabel
  split
  · exact List.mem_cons_self
  · exact List.mem_append_left _ (List.mem_append_left _ List.mem_cons_self)

/-- The record and the highlight of an image stand on its line. -/
theorem Bounded.atImage (h : flow.Bounded mayLose) (hnil : flow.current = []) (source alt : Text) :
    (flow.atImage settings source alt).InBounds mayLose := by
  obtain ⟨c, hc, hchar⟩ := exists_mem_imageLabel alt
  have hblock : (flow.commitBlock (flow.indent settings ++ imageLabel alt) Group.image).InBounds
      mayLose := h.commitBlock hnil (List.mem_append_right _ hc) hchar
  have hlabel : 0 < (imageLabel alt).length := List.length_pos_iff.2 (List.ne_nil_of_mem hc)
  have himage : Places flow.page.lines (.strict Image)
      (flow.indent settings ++ imageLabel alt).length
      [⟨flow.lineIndex, (flow.indent settings).length,
        (flow.indent settings ++ imageLabel alt).length, source, alt⟩] := by
    refine places_next rfl ⟨Int.natCast_nonneg _, Int.ofNat_lt.2 ?_, Int.le_refl _⟩
    rw [List.length_append]
    omega
  exact ⟨⟨hblock.spans, hblock.links, hblock.images.append (himage.push (Nat.le_refl _))⟩,
    hblock.before, hblock.preLinks, hblock.preSpans⟩

/-- A line of preformatted text that is open, or begun anew, is as long as its records need. -/
theorem InBounds.preStart (h : flow.InBounds mayLose) (hpre : flow.context.inPre = true) :
    Bounded mayLose { flow with current := flow.preStart settings } := by
  refine ⟨?_, (h.preLinks hpre).mono (Nat.zero_le _), h.images⟩
  show Places flow.page.lines _ (flow.preStart settings).length flow.spans
  unfold Flow.preStart
  split
  · exact h.spans
  · rename_i hopen
    exact (h.preSpans hpre (by simpa using hopen)).mono (Nat.zero_le _)

/-- **A line of preformatted text** is highlighted as a whole. -/
theorem InBounds.commitPre (h : flow.InBounds mayLose) (hpre : flow.context.inPre = true) :
    (flow.commitPre settings).InBounds mayLose := by
  have hstart : Bounded mayLose { flow with current := flow.preStart settings } := h.preStart hpre
  have hmarked : (flow.preMarked settings).Bounded mayLose := by
    unfold preMarked
    dsimp only
    split
    · exact hstart
    · rename_i hne
      have hpos : 0 < (flow.preStart settings).length := List.length_pos_iff.2 (by simpa using hne)
      refine ⟨hstart.spans.append (places_next rfl ?_), hstart.links, hstart.images⟩
      exact ⟨Int.le_refl _, Int.ofNat_lt.2 hpos, Int.le_refl _⟩
  have hcommit := hmarked.commit
  rw [commitPre_eq]
  exact inBounds_of_page rfl (hcommit.toBounded.page rfl).1 (hcommit.toBounded.page rfl).2
    hcommit.images

/-! ## (4) Plain changes -/

/-- **Plain changes** keep records in bounds. -/
theorem InBounds.plain (h : a.InBounds mayLose) (hbegun : a.Begun settings)
    (hplain : Plain settings a b) : b.InBounds mayLose := by
  cases hplain with
  | quiet => exact ⟨⟨h.spans, h.links, h.images⟩, h.before, h.preLinks, h.preSpans⟩
  | anchor attributes =>
    obtain ⟨anchors, hanchors⟩ := exists_recordAnchor a attributes
    rw [hanchors]
    exact ⟨⟨h.spans, h.links, h.images⟩, h.before, h.preLinks, h.preSpans⟩
  | heading => exact ⟨⟨h.spans, h.links, h.images⟩, h.before, h.preLinks, h.preSpans⟩
  | headingLine => exact ⟨⟨h.spans, h.links, h.images⟩, h.before, h.preLinks, h.preSpans⟩
  | pendingMark => exact ⟨⟨h.spans, h.links, h.images⟩, h.before, h.preLinks, h.preSpans⟩
  | commit => exact h.toBounded.commit
  | blank hnil =>
    exact h.toBounded.push hnil (hbegun.hasWords_eq_false hnil) rfl rfl rfl rfl rfl
  | reset => exact ⟨⟨h.spans, h.links, h.images⟩, h.before, h.preLinks, h.preSpans⟩
  | block hnil =>
    obtain ⟨hspans, hlinks⟩ := h.toBounded.page hnil
    exact inBounds_of_page (hbegun.hasWords_eq_false hnil) hspans hlinks h.images
  | leavePre =>
    exact ⟨⟨h.spans, h.links, h.images⟩, h.before, fun hpre => (nomatch hpre),
      fun hpre => (nomatch hpre)⟩
  | piece hpre piece hne =>
    have hstart : Bounded mayLose { a with current := a.preStart settings } := h.preStart hpre
    have hlength : (a.preStart settings).length ≤ (a.preStart settings ++ piece).length :=
      (List.prefix_append _ _).length_le
    rw [addPiece_of_ne_nil hne]
    -- The line is not one of words, and it is open once a piece is on it.
    refine ⟨⟨hstart.spans.mono hlength, hstart.links.mono hlength, h.images⟩, fun hw => ?_,
      h.preLinks, fun _ hopen => nomatch hopen⟩
    exact absurd hw (by simp [hbegun.hasWords_of_inPre hpre])
  | commitPre hpre => exact h.commitPre hpre
  | image hnil source alt => exact h.toBounded.atImage hnil source alt
  | rule hnil width hw =>
    -- The line of the rule ends in a dash, so that nothing is trimmed off it.
    have hdash : '─' ∈ List.replicate width '─' := List.mem_replicate.2 ⟨hw.ne', rfl⟩
    exact h.toBounded.commitBlock hnil (List.mem_append_right _ hdash) (by decide)
  | tableLine hnil =>
    exact h.toBounded.push hnil (hbegun.hasWords_eq_false hnil) rfl rfl rfl rfl rfl

/-- Plain changes keep the records inside their lines. -/
theorem InBounds.plains (h : a.InBounds mayLose) (hbegun : a.Begun settings)
    (hplains : Plains settings a b) : b.InBounds mayLose :=
  hplains.preserves (P := InBounds mayLose) (fun hbegun hplain h => h.plain hbegun hplain) hbegun h

/-! ## (5) Words -/

/-- Records over the part that is added to a line stand over that line. -/
theorem AddsOver.places {ρ : Type} [Positioned ρ] {lenience : Lenience ρ} {old new : List ρ}
    {lines : List Line} (h : AddsOver a b old new) (hlines : a.page.lines = lines)
    (hold : Places lines lenience a.current.length old) (hle : a.current <+: b.current) :
    Places lines lenience b.current.length new := by
  obtain ⟨added, rfl, hadded⟩ := h
  refine (hold.mono hle.length_le).append fun r hr => ?_
  obtain ⟨hline, hstart, hcols, hend⟩ := hadded r hr
  refine .inr (.inr ⟨?_, by omega, hcols, hend⟩)
  rw [hline, lineIndex, hlines]

/-- **A piece of a word** has its records over it. -/
theorem Bounded.lengthen (h : a.Bounded mayLose) (hl : Lengthens a b) : b.Bounded mayLose := by
  have hlines : b.page.lines = a.page.lines := by rw [hl.page]
  have himages : b.page.images = a.page.images := by rw [hl.page]
  refine ⟨?_, ?_, ?_⟩
  · rw [hlines]
    exact hl.spans.places rfl h.spans hl.current
  · rw [hlines]
    exact hl.links.places rfl h.links hl.current
  · rw [hlines, himages]
    exact h.images

/-- What stands before the last word stays there. -/
theorem BoundedBefore.lengthen (h : a.BoundedBefore mayLose) (hmarks : a.MarksWord)
    (hl : Lengthens a b) : b.BoundedBefore mayLose := by
  have hlines : b.page.lines = a.page.lines := by rw [hl.page]
  have hbroken : b.brokenLine = a.brokenLine := by
    obtain ⟨piece, hpiece⟩ := hl.current
    rw [brokenLine, brokenLine, hl.wordStart, ← hpiece,
      List.take_append_of_le_length hmarks.start_le]
  obtain ⟨spans, hspans, -⟩ := hl.spans
  obtain ⟨links, hlinks, -⟩ := hl.links
  rw [BoundedBefore, hlines, hbroken, hspans, hlinks, hl.spanMark, hl.linkMark,
    List.take_append_of_le_length hmarks.spans.mark_le,
    List.take_append_of_le_length hmarks.links.mark_le]
  exact h

/-- **A word that moves** takes its records along, and those before it stay on their line. -/
theorem Bounded.moveWord (h : flow.Bounded mayLose) (hbefore : flow.BoundedBefore mayLose)
    (hmarks : flow.MarksWord) (hpre : flow.context.inPre = false) :
    flow.moveWord.InBounds mayLose := by
  have hle : flow.continuation.length + (flow.current.length - flow.wordStart) =
      flow.moveWord.current.length := by
    show _ = (flow.continuation ++ flow.current.drop flow.wordStart).length
    rw [List.length_append, List.length_drop]
  obtain ⟨-, hspans, hlinks⟩ := moveWord_records flow
  have hkept : Places flow.moveWord.page.lines (.spans mayLose) 0 flow.broken.spans :=
    places_commit_spans { flow with
      current := flow.brokenLine
      spans := flow.spans.take flow.spanMark
      page := { flow.page with links := flow.page.links.take flow.linkMark } } hbefore.1
  refine ⟨⟨?_, ?_, h.images.push (Nat.zero_le _)⟩, fun _ hm => (nomatch hm), fun hpre' => ?_,
    fun hpre' => ?_⟩
  · have hmoved := (h.spans.subset (List.drop_subset _ _)).relocate flow.continuation.length
      hmarks.spans.behind (relocates_span _ _) (fun r hr => hr) flow.brokenLine
    rw [hspans, ← hle]
    exact (hkept.mono (Nat.zero_le _)).append hmoved
  · have hmoved := (h.links.subset (List.drop_subset _ _)).relocate flow.continuation.length
      hmarks.links.behind (relocates_link _ _) (fun r hr => hr) flow.brokenLine
    rw [hlinks, ← hle]
    exact ((hbefore.2.push (Nat.le_refl _)).mono (Nat.zero_le _)).append hmoved
  · exact absurd (hpre'.symm.trans hpre) (by decide)
  · exact absurd (hpre'.symm.trans hpre) (by decide)

/-- Outside preformatted text, only a word that may move has to be looked at. -/
theorem Bounded.inBounds (h : flow.Bounded mayLose)
    (hbefore : flow.wordMovable = true → flow.BoundedBefore mayLose)
    (hpre : flow.context.inPre = false) : flow.InBounds mayLose :=
  ⟨h, fun _ => hbefore, fun hpre' => absurd (hpre'.symm.trans hpre) (by decide),
    fun hpre' => absurd (hpre'.symm.trans hpre) (by decide)⟩

/-- **A piece of the last word** stays where it is, or moves along with the word. -/
theorem Lengthens.inBounds_fitWord (hl : Lengthens a b) (h : a.InBounds mayLose)
    (hw : a.hasWords = true) (hmarks : a.MarksWord) (hpre : a.context.inPre = false) :
    (b.fitWord settings).InBounds mayLose := by
  have hbounded := h.toBounded.lengthen hl
  have hbefore : b.wordMovable = true → b.BoundedBefore mayLose := fun hm =>
    (h.before hw (hl.wordMovable.symm.trans hm)).lengthen hmarks hl
  have hpre' : b.context.inPre = false := by rw [hl.context, hpre]
  rw [fitWord_eq]
  split
  · exact hbounded.inBounds hbefore hpre'
  · rename_i hfit
    have hm : b.wordMovable = true := by
      by_contra hm
      exact hfit (by simp [hm])
    exact hbounded.moveWord (hbefore hm) (hl.marksWord hmarks) hpre'

/-- The indentation of a fresh line leaves all records where they are. -/
theorem Bounded.beginLine (h : flow.Bounded mayLose) :
    (flow.beginLine settings).Bounded mayLose := by
  rcases beginLine_cases settings flow with ⟨-, hnil, hbegin⟩ | hbegin
  · obtain ⟨hspans, hlinks⟩ := h.page hnil
    rw [hbegin]
    exact ⟨hspans.mono (Nat.zero_le _), hlinks.mono (Nat.zero_le _), h.images⟩
  · rw [hbegin]
    exact h

/-- Room is made for a word. If words stand before it, so does a line that may be broken there. -/
theorem Bounded.makeRoom (h : flow.Bounded mayLose)
    (hletter : flow.hasWords = true → ∃ c, flow.current.getLast? = some c ∧
      Text.isSpace c = false) (word : Text) :
    (flow.makeRoom settings word).Bounded mayLose ∧
      ((flow.makeRoom settings word).hasWords = true →
        (flow.makeRoom settings word).startWord.BoundedBefore mayLose) := by
  rcases makeRoom_cases settings flow word with ⟨-, hroom⟩ | hroom
  · have hcommit := h.commit
    rw [hroom]
    refine ⟨⟨?_, ?_, hcommit.images⟩, fun hw => (nomatch hw)⟩
    · exact (hcommit.toBounded.page rfl).1.mono (Nat.zero_le _)
    · exact (hcommit.toBounded.page rfl).2.mono (Nat.zero_le _)
  · have hlength : flow.current.length ≤ (flow.current ++ flow.separator).length :=
      (List.prefix_append _ _).length_le
    rw [hroom]
    refine ⟨⟨h.spans.mono hlength, h.links.mono hlength, h.images⟩, fun hw => ?_⟩
    obtain ⟨c, hc, hspace⟩ := hletter hw
    have htrim := Text.length_le_trimRight_append hc hspace flow.separator
    have hbroken : (startWord { flow with current := flow.current ++ flow.separator }).brokenLine =
        Text.trimRight Text.isSpace (flow.current ++ flow.separator) :=
      congrArg _ List.take_length
    rw [BoundedBefore, hbroken]
    exact ⟨(h.spans.mono htrim).subset (List.take_subset _ _),
      (h.links.mono htrim).subset (List.take_subset _ _)⟩

/-- A fresh word is put where everything before it stands in bounds. -/
theorem InBounds.ready (h : flow.InBounds mayLose) (hbegun : flow.Begun settings) (word : Text) :
    ((flow.unmarked.beginLine settings).makeRoom settings word).Bounded mayLose ∧
      (((flow.unmarked.beginLine settings).makeRoom settings word).hasWords = true →
        ((flow.unmarked.beginLine settings).makeRoom settings word).startWord.BoundedBefore
          mayLose) := by
  have hunmarked : flow.unmarked.Bounded mayLose := ⟨h.spans, h.links, h.images⟩
  refine hunmarked.beginLine.makeRoom ?_ word
  rcases beginLine_cases settings flow.unmarked with ⟨hw, -, hbegin⟩ | hbegin
  · rw [hbegin]
    exact fun hw' => absurd (hw'.symm.trans hw) (by decide)
  · rw [hbegin]
    intro hw
    obtain ⟨c, hc, hblank⟩ := (hbegun.word hw).2.getLast
    rw [Text.isFlowBlank, Bool.or_eq_false_iff] at hblank
    exact ⟨c, hc, hblank.1⟩

/-- **A word** has its records over it, wherever it is put. -/
theorem InBounds.addWord (h : flow.InBounds mayLose) (hbegun : flow.Begun settings)
    (hmarks : flow.hasWords = true → flow.MarksWord) (hpre : flow.context.inPre = false)
    (hne : word ≠ []) (glue : Bool) : (flow.addWord settings word glue).InBounds mayLose := by
  have hne' : flow.pendingMark ++ word ≠ [] := List.append_ne_nil_of_right_ne_nil _ hne
  by_cases hglue : (glue && flow.hasWords) = true
  · obtain ⟨rfl, hw⟩ := Bool.and_eq_true_iff.1 hglue
    have hunmarked : flow.unmarked.InBounds mayLose :=
      ⟨⟨h.spans, h.links, h.images⟩, h.before, h.preLinks, h.preSpans⟩
    have hword : flow.unmarked.MarksWord :=
      ⟨(hmarks hw).start_le, (hmarks hw).spans, (hmarks hw).links⟩
    rw [addWord_glued hw]
    exact (lengthens_place _ hne').inBounds_fitWord hunmarked hw hword hpre
  · obtain ⟨hroom, hbefore⟩ := h.ready hbegun (flow.pendingMark ++ word)
    have hcontext : (flow.addWord settings word glue).context.inPre = false := by
      rw [addWord_context]
      exact hpre
    rw [addWord_fresh (by simpa using hglue)] at hcontext ⊢
    have hplace := lengthens_place ((flow.unmarked.beginLine settings).makeRoom settings
      (flow.pendingMark ++ word)).startWord hne'
    have hstart : ((flow.unmarked.beginLine settings).makeRoom settings
        (flow.pendingMark ++ word)).startWord.Bounded mayLose :=
      ⟨hroom.spans, hroom.links, hroom.images⟩
    exact (hstart.lengthen hplace).inBounds
      (fun hm => (hbefore hm).lengthen (marksWord_startWord _) hplace) hcontext

/-- **Flow text** stays in bounds, word by word. -/
theorem InBounds.addText (h : flow.InBounds mayLose) (hbegun : flow.Begun settings)
    (hmarks : flow.hasWords = true → flow.MarksWord) (hpre : flow.context.inPre = false)
    (s : Text) : (flow.addText settings s).InBounds mayLose := by
  have hall : (flow.addText settings s).Begun settings ∧
      ((flow.addText settings s).hasWords = true → (flow.addText settings s).MarksWord) ∧
      (flow.addText settings s).InBounds mayLose := by
    refine addText_preserves (P := fun x =>
        x.Begun settings ∧ (x.hasWords = true → x.MarksWord) ∧ x.InBounds mayLose) s
      (fun glue hx => ?_) (fun {a} {w} glue hcontext hne hletters hx => ?_) ⟨hbegun, hmarks, h⟩
    · obtain ⟨hbegun, hmarks, h⟩ := hx
      exact ⟨hbegun.change (.glue _ glue), marksWord_change (.glue _ glue) hbegun hmarks,
        ⟨h.spans, h.links, h.images⟩, h.before, h.preLinks, h.preSpans⟩
    · obtain ⟨hbegun, hmarks, h⟩ := hx
      have hpre' : a.context.inPre = false := by rw [hcontext, hpre]
      have hchange : Change settings a (a.addWord settings w glue) :=
        .word a hpre' w hne hletters glue
      exact ⟨hbegun.change hchange, marksWord_change hchange hbegun hmarks,
        h.addWord hbegun hmarks hpre' hne glue⟩
  exact hall.2.2

/-! ## (6) Items and tokens -/

/-- Counting an item does not open preformatted text. -/
theorem nextMarker_inPre (context : BlockContext) :
    context.nextMarker.2.inPre = context.inPre := by
  unfold BlockContext.nextMarker
  split
  · rfl
  · split <;> rfl

/-- The end of a line leaves a line of preformatted text open, if one is. -/
theorem newLine_preLineOpen (flow : Flow) : flow.newLine.preLineOpen = flow.preLineOpen := by
  unfold newLine
  dsimp only
  split_ifs <;> rfl

/-- **An item** has its marker highlighted, which stays there unless a line of preformatted text is
begun in its place. -/
theorem InBounds.atItem (h : flow.InBounds mayLose) (hnil : flow.current = [])
    (hkeep : flow.context.inPre = true → flow.preLineOpen = false → mayLose) :
    (flow.atItem settings).InBounds mayLose := by
  obtain ⟨hspans, hlinks⟩ := h.toBounded.page hnil
  unfold Flow.atItem
  dsimp only
  split
  · exact inBounds_of_page rfl hspans hlinks h.images
  · rename_i hmarker
    have hlt : (flow.indent settings).length <
        (flow.indent settings ++ flow.context.nextMarker.1).length := by
      have hpos : 0 < flow.context.nextMarker.1.length :=
        List.length_pos_iff.2 (by simpa using hmarker)
      rw [List.length_append]
      omega
    refine ⟨⟨(hspans.mono (Nat.zero_le _)).append (places_next rfl ?_),
      hlinks.mono (Nat.zero_le _), h.images⟩, fun hw => (nomatch hw), fun _ => hlinks,
      fun hpre hopen => hspans.append fun r hr => .inl ?_⟩
    · exact ⟨Int.natCast_nonneg _, Int.ofNat_lt.2 hlt, Int.le_refl _⟩
    · obtain rfl := List.mem_singleton.1 hr
      exact ⟨hkeep ((nextMarker_inPre _).symm.trans hpre) hopen, rfl⟩

/-- Whether a token does not begin an item where its marker may be written over: in preformatted
text of which no line is open. -/
def keepsMarker (flow : Flow) (token : Token) : Bool :=
  !(flow.opensItem token && flow.context.inPre && !flow.preLineOpen)

/-- Whether no token begins an item where its marker may be written over, of those that come after a
state. -/
def markersKept (settings : Settings) : Flow → List Token → Bool
  | _, [] => true
  | flow, token :: tokens =>
    flow.keepsMarker token && markersKept settings (flow.feed settings token) tokens

/-- **Feats** keep records in bounds, but for the marker of an item that may be written over. -/
theorem InBounds.feat (h : flow.InBounds mayLose) (hbegun : flow.Begun settings)
    (hmarks : flow.hasWords = true → flow.MarksWord) (hfeat : Feat settings flow token acted)
    (hkeep : mayLose ∨ flow.keepsMarker token = true) : acted.InBounds mayLose := by
  cases hfeat with
  | none => exact h
  | text s hpre =>
    have hcollect : Plains settings flow (flow.collectHeading s) := collectHeading_plains flow s
    exact (h.plains hbegun hcollect).addText (hbegun.changes hcollect.changes)
      (marksWord_changes hcollect.changes hbegun hmarks) (by simpa using hpre) s
  | item token hitem =>
    have hline := h.plains hbegun (newLine_plains flow)
    refine hline.atItem (newLine_current flow) fun hpre hopen => ?_
    rw [newLine_context] at hpre
    rw [newLine_preLineOpen] at hopen
    refine hkeep.resolve_right ?_
    simp [keepsMarker, hitem, hpre, hopen]
  | codeEnd token hw codeDepth =>
    have hdepth : InBounds mayLose { flow with codeDepth } :=
      ⟨⟨h.spans, h.links, h.images⟩, h.before, h.preLinks, h.preSpans⟩
    have hword : MarksWord { flow with codeDepth } :=
      ⟨(hmarks hw).start_le, (hmarks hw).spans, (hmarks hw).links⟩
    exact (lengthens_atCodeEnd { flow with codeDepth } hw).inBounds_fitWord hdepth hw hword
      (hbegun.word hw).1

/-- **Tokens** keep records in bounds, but for the markers of items that may be written over. -/
theorem InBounds.feedAll (tokens : List Token) (h : flow.InBounds mayLose)
    (hbegun : flow.Begun settings) (hmarks : flow.hasWords = true → flow.MarksWord)
    (hkeep : mayLose ∨ markersKept settings flow tokens = true) :
    (flow.feedAll settings tokens).InBounds mayLose := by
  induction tokens generalizing flow with
  | nil => exact h
  | cons token tokens ih =>
    have hkeep' : (mayLose ∨ flow.keepsMarker token = true) ∧
        (mayLose ∨ markersKept settings (flow.feed settings token) tokens = true) := by
      rw [markersKept, Bool.and_eq_true] at hkeep
      exact or_and_left.1 hkeep
    obtain ⟨acted, hfeat, hplains⟩ := feed_does settings flow token
    have hacted := hbegun.changes hfeat.changes
    exact ih ((h.feat hbegun hmarks hfeat hkeep'.1).plains hacted hplains)
      (hbegun.changes (feed_changes flow token))
      (marksWord_changes (feed_changes flow token) hbegun hmarks) hkeep'.2

/-- What every state promises about its line, its marks and its records, where markers of items may
be lost. -/
structure Sound (settings : Settings) (flow : Flow) : Prop where
  begun : flow.Begun settings
  marks : flow.hasWords = true → flow.MarksWord
  bounds : flow.InBounds True

/-- A state with an empty page is sound. -/
theorem sound_empty (settings : Settings) : Sound settings {} :=
  ⟨begun_of_empty (.inl rfl) rfl rfl, fun hw => (nomatch hw),
    inBounds_of_page rfl (places_nil _ _ _) (places_nil _ _ _) (places_nil _ _ _)⟩

/-- **Changes** keep a state sound. -/
theorem Sound.change (h : Sound settings a) (hc : Change settings a b) : Sound settings b := by
  refine ⟨h.begun.change hc, marksWord_change hc h.begun h.marks, ?_⟩
  rcases hc.plain_or with hplain | ⟨hnil, rfl⟩ | ⟨word, glue, hpre, hne, -, rfl⟩ | ⟨hw, rfl⟩
  · exact h.bounds.plain h.begun hplain
  · exact h.bounds.atItem hnil fun _ _ => trivial
  · exact h.bounds.addWord h.begun h.marks hpre hne glue
  · exact (lengthens_atCodeEnd a hw).inBounds_fitWord h.bounds hw (h.marks hw) (h.begun.word hw).1

/-- **Invariants of sound states.** What every change of a sound state preserves holds before the
page is finished if it held at the start. -/
theorem flush_invariant (settings : Settings) {P : Flow → Prop} (hstart : P {})
    (step : ∀ {a b : Flow}, Sound settings a → Change settings a b → P a → P b)
    (tokens : List Token) :
    Sound settings ((feedAll {} settings tokens).flush settings) ∧
      P ((feedAll {} settings tokens).flush settings) := by
  have hchanges : Changes settings {} ((feedAll {} settings tokens).flush settings) :=
    (feedAll_changes {} tokens).trans (flush_changes _)
  exact hchanges.preserves (P := fun flow => Sound settings flow ∧ P flow)
    (fun hc h => ⟨h.1.change hc, step h.1 hc h.2⟩) ⟨sound_empty settings, hstart⟩

/-! ## (7) Pages -/

/-- A line with text stays where it is when blank lines are dropped at the end of a page. -/
theorem getElem?_dropTrailingBlanks {lines : List Line} {line : Line} {n : Nat}
    (hline : lines[n]? = some line) (hlt : n < (dropTrailingBlanks lines).length) :
    (dropTrailingBlanks lines)[n]? = some line := by
  obtain ⟨blanks, hblanks, -⟩ := exists_dropTrailingBlanks_append lines
  rw [hblanks, List.getElem?_append_left hlt] at hline
  exact hline

/-- A record over columns of a line stays in its line when blank lines are dropped. -/
theorem holds_of_within {ρ : Type} [Positioned ρ] {lines : List Line} {line : Line} {n : Nat}
    {page : Page} {r : ρ} (hpage : page.lines = dropTrailingBlanks lines)
    (hn : Positioned.line r = n) (hline : lines[n]? = some line) (hr : Within line.length r) :
    page.Holds r := by
  obtain ⟨hstart, hcols, hend⟩ := hr
  have hne : line ≠ [] := by
    rintro rfl
    exact not_within_zero ⟨hstart, hcols, hend⟩
  refine ⟨n, line, hn, ?_, hstart, hcols.le, hend⟩
  rw [hpage]
  exact getElem?_dropTrailingBlanks hline (lt_length_dropTrailingBlanks hline hne)

/-- Records that have to stand inside their lines do. -/
theorem holds_of_places {ρ : Type} [Positioned ρ] {lines : List Line} {records : List ρ}
    {page : Page} (h : Places lines (.strict ρ) 0 records)
    (hpage : page.lines = dropTrailingBlanks lines) : ∀ r ∈ records, page.Holds r := by
  intro r hr
  rcases h r hr with hlost | ⟨n, line, hn, hline, hr | ⟨-, hblank, -⟩⟩ | ⟨-, hr⟩
  · exact hlost.elim
  · exact holds_of_within hpage hn hline hr
  · exact hblank.elim
  · exact (not_within_zero hr).elim

/-- A span stands inside its line, or highlights a blank line that was removed. -/
theorem holds_of_fits {lines : List Line} {line : Line} {n : Nat} {page : Page} {s : Span}
    (hpage : page.lines = dropTrailingBlanks lines) (hn : s.line = n)
    (hline : lines[n]? = some line) (hfits : (Lenience.spans mayLose).Fits line s) :
    page.Holds s ∨ page.RemovedTitle s := by
  rcases hfits with hs | ⟨rfl, htitle, hstart, hend⟩
  · exact .inl (holds_of_within hpage hn hline hs)
  · by_cases hlt : n < page.lines.length
    · refine .inl ⟨n, [], hn, ?_, hstart.ge, (hstart.trans hend.symm).le, hend.le⟩
      rw [hpage] at hlt ⊢
      exact getElem?_dropTrailingBlanks hline hlt
    · exact .inr ⟨hn ▸ Int.ofNat_le.2 (Nat.not_lt.1 hlt), hstart, hend, htitle⟩

/-- A span that starts with one and ends with another span of a line. -/
theorem fits_merged {line : Line} {a b m : Span} (ha : (Lenience.spans mayLose).Fits line a)
    (hb : (Lenience.spans mayLose).Fits line b) (hgroup : a.group = m.group)
    (hstart : a.startCol = m.startCol) (hle : a.endCol ≤ m.endCol) (hend : b.endCol = m.endCol) :
    (Lenience.spans mayLose).Fits line m := by
  rcases ha with ha | ⟨rfl, htitle, hzero, -⟩
  · rcases hb with ⟨-, -, hlength⟩ | ⟨rfl, -⟩
    · obtain ⟨hzero, hcols, -⟩ : 0 ≤ a.startCol ∧ a.startCol < a.endCol ∧ _ := ha
      have hlength' : b.endCol ≤ line.length := hlength
      refine .inl ⟨?_, ?_, ?_⟩
      · show 0 ≤ m.startCol
        omega
      · show m.startCol < m.endCol
        omega
      · show m.endCol ≤ line.length
        omega
    · exact (not_within_zero ha).elim
  · rcases hb with hb | ⟨-, -, -, hzero'⟩
    · exact (not_within_zero hb).elim
    · exact .inr ⟨rfl, hgroup.symm.trans htitle, hstart.symm.trans hzero, hend.symm.trans hzero'⟩

/-- **Merged spans** stand inside lines of the page, up to blank titles that were removed and
markers that were lost. -/
theorem holds_of_mergeSpans {lines : List Line} {spans : List Span} {page : Page}
    (h : Places lines (.spans mayLose) 0 spans) (hpage : page.lines = dropTrailingBlanks lines) :
    ∀ m ∈ mergeSpans spans, page.Holds m ∨ page.RemovedTitle m ∨
      mayLose ∧ m.group = Group.listItem := by
  intro m hm
  obtain ⟨⟨a, ha, hrow, hstart, hle⟩, ⟨b, hb, hrow', hend⟩, -⟩ := mergedFrom_mergeSpans hm
  rcases h a ha with ⟨hlose, hgroup⟩ | ⟨n, line, hn, hline, hfits⟩ | ⟨-, hin⟩
  · exact .inr (.inr ⟨hlose, hrow.2.symm.trans hgroup⟩)
  · rcases h b hb with ⟨hlose, hgroup⟩ | ⟨n', line', hn', hline', hfits'⟩ | ⟨-, hin⟩
    · exact .inr (.inr ⟨hlose, hrow'.2.symm.trans hgroup⟩)
    · obtain rfl : n' = n := Int.ofNat.inj
        (hn'.symm.trans ((hrow'.1.trans hrow.1.symm).trans hn))
      obtain rfl : line' = line := Option.some.inj (hline'.symm.trans hline)
      rw [← or_assoc]
      exact .inl (holds_of_fits hpage (hrow.1.symm.trans hn) hline
        (fits_merged hfits hfits' hrow.2 hstart hle hend))
    · exact (not_within_zero hin).elim
  · exact (not_within_zero hin).elim

/-- A record inside its line stays where it is when it is moved into its line. -/
theorem clampRecord?_of_holds {ρ : Type} [Positioned ρ] [LawfulPositioned ρ] {page : Page}
    {r : ρ} (h : page.Holds r) : clampRecord? page.lines r = some r := by
  obtain ⟨n, line, hn, hline, hstart, hle, hend⟩ := h
  refine clampRecord?_of_le ?_ hstart hle hend
  rw [hn, lineAt?_natCast, hline]

/-- Records that stand inside their lines are not cut. -/
theorem clampRecords_of_holds {ρ : Type} [Positioned ρ] [LawfulPositioned ρ] {page : Page}
    {records : List ρ} (h : ∀ r ∈ records, page.Holds r) :
    clampRecords page.lines records = records :=
  (List.filterMap_congr fun r hr => clampRecord?_of_holds (h r hr)).trans List.filterMap_some

/-- **Moving spans into their lines** only drops those over no column. -/
theorem clampSpans_of_holds {page : Page} {spans : List Span}
    (h : ∀ s ∈ spans, page.Holds s ∨ page.RemovedTitle s) :
    clampSpans page.lines spans = spans.filter fun s => s.startCol < s.endCol := by
  rw [clampSpans, clampRecords, List.filter_filterMap, ← List.filterMap_eq_filter]
  refine List.filterMap_congr fun s hs => ?_
  rcases h s hs with hin | ⟨hline, hstart, hend, -⟩
  · rw [clampRecord?_of_holds hin, Option.filter_some, Option.guard_eq_ite]
  · -- The line was removed, and the span is over no column of it.
    have hnone : lineAt? page.lines s.line = none := by
      rw [lineAt?, if_neg (by omega), List.getElem?_eq_none_iff]
      omega
    have hempty : ¬s.startCol < s.endCol := by omega
    rw [clampRecord?_none hnone, Option.filter_none, Option.guard_eq_ite,
      if_neg (by simpa using hempty)]

/-- **The records of a layout are in bounds:** its links and images, and its highlights up to those
of blank titles at its end and of markers that are written over. Where no marker is, moving the
records into their lines only drops highlights over no column. -/
theorem run_inBounds (settings : Settings) (tokens : List Token) :
    let page := (run settings tokens).page
    (∀ link ∈ page.links, page.Holds link) ∧ (∀ image ∈ page.images, page.Holds image) ∧
      (∀ s ∈ page.highlights, page.Holds s ∨ page.RemovedTitle s ∨
        markersKept settings {} tokens = false ∧ s.group = Group.listItem) ∧
      (markersKept settings {} tokens = true → page.clamp =
        { page with highlights := page.highlights.filter fun s => s.startCol < s.endCol }) := by
  intro page
  have hstart : InBounds (markersKept settings {} tokens = false) {} :=
    inBounds_of_page rfl (places_nil _ _ _) (places_nil _ _ _) (places_nil _ _ _)
  -- The flow is in bounds from the start on and at the end, and no line is open then.
  have hbegun : Begun settings {} := begun_of_empty (.inl rfl) rfl rfl
  have hfed := hstart.feedAll tokens hbegun (fun hw => nomatch hw)
    (by cases markersKept settings {} tokens <;> simp)
  have hflushed := hfed.plains (begun_feedAll settings tokens) (flush_plains _)
  obtain ⟨hspans, hlinks⟩ := hflushed.toBounded.page (flush_current settings _)
  have hholdLinks : ∀ link ∈ page.links, page.Holds link := holds_of_places hlinks rfl
  have hholdImages : ∀ image ∈ page.images, page.Holds image := holds_of_places hflushed.images rfl
  have hholdSpans : ∀ s ∈ page.highlights, page.Holds s ∨ page.RemovedTitle s ∨
      markersKept settings {} tokens = false ∧ s.group = Group.listItem :=
    holds_of_mergeSpans hspans rfl
  -- If no marker was lost, clamping has nothing to do but to drop what is empty.
  refine ⟨hholdLinks, hholdImages, hholdSpans, fun hkept => ?_⟩
  have hhighlights : ∀ s ∈ page.highlights, page.Holds s ∨ page.RemovedTitle s := fun s hs =>
    (hholdSpans s hs).imp_right fun h => h.resolve_right fun hlost =>
      absurd (hkept.symm.trans hlost.1) (by decide)
  rw [Page.clamp, clampRecords_of_holds hholdLinks, clampRecords_of_holds hholdImages,
    clampSpans_of_holds hhighlights]

/-- An item begun behind a line of preformatted text keeps its marker. The blank lines of the title
at the end are removed, and their highlights are dropped. -/
theorem run_inBounds_openLine :
    let tokens : List Token :=
      [.opening "ul".toList [], .opening "pre".toList [], .text ['a'], .opening "li".toList [],
        .text ['x'], .closing "pre".toList, .closing "ul".toList,
       .opening "title".toList [], .opening "pre".toList [], .text ['\n', '\n', '\n'],
        .closing "pre".toList, .closing "title".toList]
    let page := (run {} tokens).page
    markersKept {} {} tokens = true ∧ page.lines = ["  a".toList, "  • x".toList] ∧
      page.clamp =
        { page with highlights := page.highlights.filter fun s => s.startCol < s.endCol } := by
  intro tokens page
  have hkept : markersKept {} {} tokens = true := by decide +kernel
  have hlines : page.lines = ["  a".toList, "  • x".toList] := by decide +kernel
  obtain ⟨-, -, -, hclamp⟩ := run_inBounds {} tokens
  exact ⟨hkept, hlines, hclamp hkept⟩

/-- The marker of an item that is begun first in preformatted text is written over, and its
highlight ends behind its line. -/
theorem run_inBounds_markerLost :
    let tokens : List Token :=
      [.opening "pre".toList [], .opening "ul".toList [], .opening "li".toList [], .text ['x'],
        .closing "li".toList, .closing "ul".toList, .closing "pre".toList]
    (run {} tokens).page.lines = ["  x".toList] ∧
      ∃ s ∈ (run {} tokens).page.highlights, s.line = 0 ∧ 4 ≤ s.endCol ∧
        ¬(run {} tokens).page.Holds s := by
  intro tokens
  have hlines : (run {} tokens).page.lines = ["  x".toList] := by decide +kernel
  have hmem : (⟨0, 2, 4, Group.listItem⟩ : Span) ∈
      ((feedAll {} {} tokens).flush {}).spans := by decide +kernel
  obtain ⟨s, hs, ⟨hline, _⟩, -, hend⟩ := exists_mergeSpans_covering hmem
  refine ⟨hlines, s, hs, hline, hend, ?_⟩
  rintro ⟨n, line, hn, hfound, -, -, hle⟩
  obtain rfl : 0 = n := Int.ofNat.inj (hline.symm.trans hn)
  rw [hlines] at hfound
  obtain rfl := Option.some.inj hfound
  exact absurd (hend.trans hle) (by decide)

end Flow

end ChapterLayout
