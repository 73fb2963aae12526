import ChapterLayout.Proofs.Flow.Inline
import ChapterLayout.Proofs.Flow.WordMarks

/-! # What a token leaves alone

A page is written from its first line to its last. A token adds lines and records behind those that
are there, and it changes nothing on the lines before the one that is being filled. Of that line
only the last word may move, and then its spans and links move along:

* **`Flow.Appends`** — whether a step only adds lines and records;
* **`Flow.Extends`** — whether a step does so up to one move of the last word;
* **`Flow.extends_feed`** — every token extends every state that tokens lead to. -/

namespace ChapterLayout

/-- Whether a page only grows to another one: what was recorded stays, and so do the marks of the
lines that were there. -/
structure Page.GrowsTo (page page' : Page) : Prop where
  lines : page.lines <+: page'.lines
  images : page.images <+: page'.images
  headings : page.headings <+: page'.headings
  anchors : page.anchors <+: page'.anchors
  noJustify : ∀ i : Int, i < page.lines.length → (i ∈ page'.noJustify ↔ i ∈ page.noJustify)
  centered : ∀ i : Int, i < page.lines.length → (i ∈ page'.centered ↔ i ∈ page.centered)

/-- A page that stays as it is only grows. -/
theorem Page.growsTo_refl (page : Page) : page.GrowsTo page :=
  ⟨List.prefix_rfl, List.prefix_rfl, List.prefix_rfl, List.prefix_rfl, fun _ _ => Iff.rfl,
    fun _ _ => Iff.rfl⟩

/-- Links may change while a page grows. -/
theorem Page.growsTo_links (page : Page) (links : List Link) : page.GrowsTo { page with links } :=
  ⟨List.prefix_rfl, List.prefix_rfl, List.prefix_rfl, List.prefix_rfl, fun _ _ => Iff.rfl,
    fun _ _ => Iff.rfl⟩

/-- A page that grows twice grows. -/
theorem Page.GrowsTo.trans {p q r : Page} (hpq : p.GrowsTo q) (hqr : q.GrowsTo r) :
    p.GrowsTo r := by
  have hle : (p.lines.length : Int) ≤ q.lines.length := Int.ofNat_le.2 hpq.lines.length_le
  refine ⟨hpq.lines.trans hqr.lines, hpq.images.trans hqr.images,
    hpq.headings.trans hqr.headings, hpq.anchors.trans hqr.anchors, fun i hi => ?_, fun i hi => ?_⟩
  · exact (hqr.noJustify i (by omega)).trans (hpq.noJustify i hi)
  · exact (hqr.centered i (by omega)).trans (hpq.centered i hi)

/-- A number that is added to a set of lines changes nothing for the others. -/
theorem LineSet.mem_insert_of_ne {i j : Int} {set : LineSet} (h : i ≠ j) :
    i ∈ set.insert j ↔ i ∈ set := by
  rw [mem_insert]
  exact or_iff_right h

namespace Flow

variable {settings : Settings} {flow a b c acted : Flow} {token : Token} {word s : Text} {n : Nat}

/-! ## (1) Steps that only add -/

/-- Whether a line starts with a text: a line of the page, or the one that is being filled if it
holds a word. -/
def LineStarts (flow : Flow) (n : Nat) (s : Text) : Prop :=
  (∃ line, flow.page.lines[n]? = some line ∧ s <+: line) ∨
    n = flow.lineIndex ∧ flow.hasWords = true ∧ s <+: flow.current

/-- Whether records are only added, and none of them before a line. -/
def AddsFrom {ρ : Type} [Positioned ρ] (line : Int) (old new : List ρ) : Prop :=
  ∃ added, new = old ++ added ∧ ∀ r ∈ added, line ≤ Positioned.line r

/-- Whether a step only adds lines and records, and only lengthens a line that holds a word. -/
structure Appends (a b : Flow) : Prop where
  page : a.page.GrowsTo b.page
  spans : AddsFrom a.lineIndex a.spans b.spans
  links : AddsFrom a.lineIndex a.page.links b.page.links
  current : a.hasWords = true → b.LineStarts a.lineIndex a.current

section Records

variable {ρ : Type} [Positioned ρ] {old new new' : List ρ} {line line' : Int}

/-- No record is added. -/
theorem addsFrom_refl (line : Int) (records : List ρ) : AddsFrom line records records :=
  ⟨[], (List.append_nil _).symm, fun _ hr => absurd hr List.not_mem_nil⟩

/-- Records behind a line are added at the end. -/
theorem addsFrom_append {added : List ρ} (h : ∀ r ∈ added, line ≤ Positioned.line r) :
    AddsFrom line old (old ++ added) := ⟨added, rfl, h⟩

/-- Records that are added twice are added, the later ones on later lines. -/
theorem AddsFrom.trans (h : AddsFrom line old new) (h' : AddsFrom line' new new')
    (hle : line ≤ line') : AddsFrom line old new' := by
  obtain ⟨added, rfl, hadded⟩ := h
  obtain ⟨added', rfl, hadded'⟩ := h'
  refine ⟨added ++ added', List.append_assoc _ _ _, fun r hr => ?_⟩
  rcases List.mem_append.1 hr with hr | hr
  · exact hadded r hr
  · exact hle.trans (hadded' r hr)

/-- None of the records stands before the line. -/
theorem filter_earlier_eq_nil {records : List ρ} (h : ∀ r ∈ records, line ≤ Positioned.line r) :
    records.filter (Positioned.line · < line) = [] := by
  refine List.filter_eq_nil_iff.2 fun r hr => ?_
  have hle := h r hr
  simp only [decide_eq_true_eq]
  omega

/-- No record is added before the line. -/
theorem AddsFrom.filter_lt (h : AddsFrom line old new) (hle : line' ≤ line) :
    new.filter (Positioned.line · < line') = old.filter (Positioned.line · < line') := by
  obtain ⟨added, rfl, hadded⟩ := h
  rw [List.filter_append, filter_earlier_eq_nil fun r hr => hle.trans (hadded r hr),
    List.append_nil]

end Records

/-- Nothing is done. -/
theorem appends_refl (flow : Flow) : Appends flow flow :=
  ⟨flow.page.growsTo_refl, addsFrom_refl _ _, addsFrom_refl _ _,
    fun hw => .inr ⟨rfl, hw, List.prefix_rfl⟩⟩

/-- Lines only get longer. -/
theorem LineStarts.appends (h : a.LineStarts n s) (hab : Appends a b) : b.LineStarts n s := by
  rcases h with ⟨line, hline, hs⟩ | ⟨rfl, hw, hs⟩
  · obtain ⟨added, hlines⟩ := hab.page.lines
    refine .inl ⟨line, ?_, hs⟩
    rw [← hlines, List.getElem?_append_left (List.getElem?_eq_some_iff.1 hline).1]
    exact hline
  · rcases hab.current hw with ⟨line, hline, hcurrent⟩ | ⟨hn, hw', hcurrent⟩
    · exact .inl ⟨line, hline, hs.trans hcurrent⟩
    · exact .inr ⟨hn, hw', hs.trans hcurrent⟩

/-- Two steps that only add. -/
theorem Appends.trans (hab : Appends a b) (hbc : Appends b c) : Appends a c := by
  have hindex : (a.lineIndex : Int) ≤ b.lineIndex := Int.ofNat_le.2 hab.page.lines.length_le
  exact ⟨hab.page.trans hbc.page, hab.spans.trans hbc.spans hindex,
    hab.links.trans hbc.links hindex, fun hw => (hab.current hw).appends hbc⟩

/-! ## (2) Plain changes -/

/-- The page is what it was, and the line goes on. -/
theorem appends_of_page (hpage : a.page.GrowsTo b.page) (hlines : b.page.lines = a.page.lines)
    (hlinks : b.page.links = a.page.links) (hspans : AddsFrom a.lineIndex a.spans b.spans)
    (hcurrent : a.hasWords = true → b.hasWords = true ∧ a.current <+: b.current) :
    Appends a b := by
  refine ⟨hpage, hspans, hlinks ▸ addsFrom_refl _ _, fun hw => .inr ⟨?_, hcurrent hw⟩⟩
  rw [lineIndex, lineIndex, hlines]

/-- A line is put on the page, with marks on it and records behind all others. -/
theorem appends_of_line {line : Line} (hlines : b.page.lines = a.page.lines ++ [line])
    (himages : b.page.images = a.page.images) (hheadings : b.page.headings = a.page.headings)
    (hanchors : b.page.anchors = a.page.anchors)
    (hnoJustify : ∀ i ≠ (a.lineIndex : Int), i ∈ b.page.noJustify ↔ i ∈ a.page.noJustify)
    (hcentered : ∀ i ≠ (a.lineIndex : Int), i ∈ b.page.centered ↔ i ∈ a.page.centered)
    (hspans : AddsFrom a.lineIndex a.spans b.spans) (hlinks : b.page.links = a.page.links)
    (hcurrent : a.hasWords = true → a.current <+: line) : Appends a b := by
  refine ⟨⟨hlines ▸ List.prefix_append _ _, himages ▸ List.prefix_rfl, hheadings ▸ List.prefix_rfl,
    hanchors ▸ List.prefix_rfl, fun i hi => hnoJustify i (Int.ne_of_lt hi),
    fun i hi => hcentered i (Int.ne_of_lt hi)⟩, hspans, hlinks ▸ addsFrom_refl _ _,
    fun hw => .inl ⟨line, ?_, hcurrent hw⟩⟩
  rw [hlines, lineIndex, List.getElem?_append_right (Nat.le_refl _), Nat.sub_self]
  rfl

/-- The marks and the span of a line that is committed are its own. -/
theorem commit_records (flow : Flow) :
    (∀ i ≠ (flow.lineIndex : Int), i ∈ flow.commit.page.noJustify ↔ i ∈ flow.page.noJustify) ∧
      (∀ i ≠ (flow.lineIndex : Int), i ∈ flow.commit.page.centered ↔ i ∈ flow.page.centered) ∧
      AddsFrom flow.lineIndex flow.spans flow.commit.spans := by
  refine ⟨fun i hi => ?_, fun i hi => ?_, ?_⟩
  all_goals
    dsimp only [commit]
    split
  · exact LineSet.mem_insert_of_ne hi
  · exact Iff.rfl
  · exact LineSet.mem_insert_of_ne hi
  · exact Iff.rfl
  · exact addsFrom_append fun r hr => List.mem_singleton.1 hr ▸ Int.le_refl _
  · exact addsFrom_refl _ _

/-- A committed line is added to the page, with its records. -/
theorem appends_commit (flow : Flow) : Appends flow flow.commit := by
  obtain ⟨hnoJustify, hcentered, hspans⟩ := commit_records flow
  exact appends_of_line rfl rfl rfl rfl hnoJustify hcentered hspans rfl fun _ => List.prefix_rfl

/-- A line of its own is exempt, and has a span of its own. -/
theorem appends_commitBlock (hw : flow.hasWords = false) (s : Text) (group : Group) :
    Appends flow (flow.commitBlock s group) := by
  obtain ⟨hnoJustify, hcentered, hspans⟩ := commit_records
    (({ flow with current := s }).addSpan (s.takeWhile isIndentChar).length s.length group)
  refine appends_of_line rfl rfl rfl rfl (fun i hi => ?_) hcentered ?_ rfl fun h => ?_
  · exact (LineSet.mem_insert_of_ne hi).trans (hnoJustify i hi)
  · exact (addsFrom_append fun r hr => List.mem_singleton.1 hr ▸ Int.le_refl _).trans hspans
      (Int.le_refl _)
  · exact absurd h (by simp [hw])

/-- A line of preformatted text is put on the page. -/
theorem appends_commitPre (hw : flow.hasWords = false) :
    Appends flow (flow.commitPre settings) := by
  have hstart : Appends flow { flow with current := flow.preStart settings } :=
    appends_of_page flow.page.growsTo_refl rfl rfl (addsFrom_refl _ _)
      fun h => absurd h (by simp [hw])
  have hmarked : Appends flow (flow.preMarked settings) := by
    unfold preMarked
    dsimp only
    split
    · exact hstart
    · refine hstart.trans (appends_of_page (Page.growsTo_refl _) rfl rfl ?_
        fun h => ⟨h, List.prefix_rfl⟩)
      exact addsFrom_append fun r hr => List.mem_singleton.1 hr ▸ Int.le_refl _
  refine hmarked.trans ((appends_commit _).trans ?_)
  exact appends_of_page (Page.growsTo_refl _) rfl rfl (addsFrom_refl _ _) fun h => nomatch h

/-- **Plain changes** only add. -/
theorem Plain.appends (h : Plain settings a b) (hbegun : a.Begun settings) : Appends a b := by
  -- Most steps add nothing to the lines and the spans.
  have hsame : ∀ {b : Flow}, a.page.GrowsTo b.page → b.page.lines = a.page.lines →
      b.page.links = a.page.links → b.spans = a.spans →
      (a.hasWords = true → b.hasWords = true ∧ b.current = a.current) → Appends a b :=
    fun hpage hlines hlinks hspans hcurrent => appends_of_page hpage hlines hlinks
      (hspans ▸ addsFrom_refl _ _) fun hw => ⟨(hcurrent hw).1, (hcurrent hw).2 ▸ List.prefix_rfl⟩
  -- And most of those leave the page as it is altogether.
  have hquiet : ∀ {b : Flow}, b.page = a.page → b.spans = a.spans →
      (a.hasWords = true → b.hasWords = true ∧ b.current = a.current) → Appends a b :=
    fun hpage => hsame (hpage ▸ Page.growsTo_refl _) (hpage ▸ rfl) (hpage ▸ rfl)
  cases h with
  | quiet => exact hquiet rfl rfl fun hw => ⟨hw, rfl⟩
  | anchor attributes =>
    unfold recordAnchor
    split
    · exact appends_refl a
    split
    · exact appends_refl a
    · refine hsame ?_ rfl rfl rfl fun hw => ⟨hw, rfl⟩
      exact { Page.growsTo_refl a.page with anchors := List.prefix_append _ _ }
  | heading =>
    refine hsame ?_ rfl rfl rfl fun hw => ⟨hw, rfl⟩
    exact { Page.growsTo_refl a.page with headings := List.prefix_append _ _ }
  | headingLine => exact hquiet rfl rfl fun hw => ⟨hw, rfl⟩
  | pendingMark => exact hquiet rfl rfl fun hw => ⟨hw, rfl⟩
  | commit => exact appends_commit a
  | blank hnil =>
    exact appends_of_line rfl rfl rfl rfl (fun _ _ => Iff.rfl) (fun _ _ => Iff.rfl)
      (addsFrom_refl _ _) rfl fun hw => absurd hw (by simp [hbegun.hasWords_eq_false hnil])
  | reset hnil => exact hquiet rfl rfl fun hw => ⟨hw, rfl⟩
  | block hnil => exact hquiet rfl rfl fun hw => ⟨hw, rfl⟩
  | leavePre => exact hquiet rfl rfl fun hw => ⟨hw, rfl⟩
  | piece hpre piece hne =>
    rw [addPiece_of_ne_nil hne]
    exact hquiet rfl rfl fun hw => absurd hw (by simp [hbegun.hasWords_of_inPre hpre])
  | commitPre hpre => exact appends_commitPre (hbegun.hasWords_of_inPre hpre)
  -- An image puts its line on the page first, and then its record over that line.
  | image hnil source alt =>
    refine (appends_commitBlock (hbegun.hasWords_eq_false hnil)
      (a.indent settings ++ imageLabel alt) Group.image).trans ?_
    refine appends_of_page ?_ rfl rfl (addsFrom_refl _ _) fun h => nomatch h
    exact { Page.growsTo_refl _ with images := List.prefix_append _ _ }
  | rule hnil => exact appends_commitBlock (hbegun.hasWords_eq_false hnil) _ _
  | tableLine hnil =>
    exact appends_of_line rfl rfl rfl rfl (fun i hi => LineSet.mem_insert_of_ne hi)
      (fun _ _ => Iff.rfl) (addsFrom_refl _ _) rfl
      fun hw => absurd hw (by simp [hbegun.hasWords_eq_false hnil])

/-- Plain changes only add. -/
theorem Plains.appends (h : Plains settings a b) (hbegun : a.Begun settings) : Appends a b :=
  h.preserves (P := Appends a) (fun hbegun hplain h => h.trans (hplain.appends hbegun)) hbegun
    (appends_refl a)

/-! ## (3) Items and words -/

/-- An item begins a line. -/
theorem appends_atItem (hw : flow.hasWords = false) : Appends flow (flow.atItem settings) := by
  unfold atItem
  dsimp only
  split
  · exact appends_of_page (Page.growsTo_refl _) rfl rfl (addsFrom_refl _ _)
      fun h => absurd h (by simp [hw])
  · refine appends_of_page (Page.growsTo_refl _) rfl rfl ?_ fun h => absurd h (by simp [hw])
    exact addsFrom_append fun r hr => List.mem_singleton.1 hr ▸ Int.le_refl _

/-- A piece of the last word is put at the end of the line. -/
theorem Lengthens.appends (h : Lengthens a b) : Appends a b := by
  obtain ⟨spans, hspans, hspansOver⟩ := h.spans
  obtain ⟨links, hlinks, hlinksOver⟩ := h.links
  refine ⟨?_, ?_, ?_, fun _ => .inr ⟨h.lineIndex.symm, h.hasWords, h.current⟩⟩
  · rw [h.page]
    exact a.page.growsTo_links _
  · rw [hspans]
    exact addsFrom_append fun r hr => (hspansOver r hr).1.ge
  · rw [hlinks]
    exact addsFrom_append fun r hr => (hlinksOver r hr).1.ge

/-- A line is begun, or it is begun already. -/
theorem appends_beginLine (flow : Flow) : Appends flow (flow.beginLine settings) := by
  rcases beginLine_cases settings flow with ⟨hw, -, hbegin⟩ | hbegin
  · rw [hbegin]
    exact appends_of_page (Page.growsTo_refl _) rfl rfl (addsFrom_refl _ _)
      fun h => absurd h (by simp [hw])
  · rw [hbegin]
    exact appends_refl flow

/-- A line that has no room for a word is committed, or gets the gap before the word. -/
theorem appends_makeRoom (flow : Flow) (word : Text) :
    Appends flow (flow.makeRoom settings word) := by
  rcases makeRoom_cases settings flow word with ⟨-, hroom⟩ | hroom
  · rw [hroom]
    refine (appends_commit flow).trans ?_
    exact appends_of_page (Page.growsTo_refl _) rfl rfl (addsFrom_refl _ _) fun h => nomatch h
  · rw [hroom]
    exact appends_of_page (Page.growsTo_refl _) rfl rfl (addsFrom_refl _ _)
      fun h => ⟨h, List.prefix_append _ _⟩

/-- The mark before the next word is used up. -/
theorem appends_unmarked (flow : Flow) : Appends flow flow.unmarked :=
  appends_of_page (Page.growsTo_refl _) rfl rfl (addsFrom_refl _ _) fun h => ⟨h, List.prefix_rfl⟩

/-- **A fresh word** only adds. -/
theorem appends_fresh {glue : Bool} (h : (glue && flow.hasWords) = false) (hne : word ≠ []) :
    Appends flow (flow.addWord settings word glue) := by
  have hstart : ∀ x : Flow, Appends x x.startWord := fun x =>
    appends_of_page (Page.growsTo_refl _) rfl rfl (addsFrom_refl _ _)
      fun h => ⟨h, List.prefix_rfl⟩
  have hne' : flow.pendingMark ++ word ≠ [] := List.append_ne_nil_of_right_ne_nil _ hne
  rw [addWord_fresh h]
  exact (appends_unmarked flow).trans ((appends_beginLine _).trans ((appends_makeRoom _ _).trans
    ((hstart _).trans (lengthens_place _ hne').appends)))

/-- Words are added one after the other. -/
theorem appends_addWords (words : List Text) (flow : Flow) (hne : ∀ word ∈ words, word ≠ []) :
    Appends flow (flow.addWords settings words) := by
  induction words generalizing flow with
  | nil => exact appends_refl flow
  | cons word words ih =>
    exact (appends_fresh rfl (hne word List.mem_cons_self)).trans
      (ih _ fun other hother => hne other (List.mem_cons_of_mem _ hother))

/-! ## (4) The move of a word -/

/-- Whether the last word of a state stands on the line behind it in another state, moved by some
columns. -/
def WordMoved (a b : Flow) (shift : Int) : Prop :=
  ∃ before : Text, (before.length : Int) = a.wordStart + shift ∧
    b.LineStarts (a.lineIndex + 1) (before ++ a.current.drop a.wordStart)

/-- Whether records are carried over to another state: those on earlier lines are the same, and
those on the line that was being filled are there as they were, or moved along with its last word.
`onLine` puts a record on another line. -/
structure Carries {ρ : Type} [Positioned ρ] (onLine : ρ → Int → ρ) (a b : Flow) (shift : Int)
    (old new : List ρ) : Prop where
  earlier : new.filter (Positioned.line · < (a.lineIndex : Int)) =
    old.filter (Positioned.line · < (a.lineIndex : Int))
  present : ∃ kept moved, old = kept ++ moved ∧
    (kept ++ moved.map (relocate onLine (a.lineIndex + 1) shift)).Sublist new ∧
    ∀ r ∈ moved, Positioned.line r = a.lineIndex ∧ (a.wordStart : Int) ≤ Positioned.startCol r ∧
      WordMoved a b shift

/-- Whether a step only adds to a state, up to one move of its last word. -/
structure Extends (a b : Flow) : Prop where
  page : a.page.GrowsTo b.page
  records : ∃ shift,
    Carries (fun r line => { r with line }) a b shift a.spans b.spans ∧
    Carries (fun r line => { r with line }) a b shift a.page.links b.page.links

section Records

variable {ρ : Type} [Positioned ρ] {onLine : ρ → Int → ρ} {old new new' added : List ρ}
  {shift : Int} {mark : Nat}

/-- Nothing moves where records are only added. -/
theorem AddsFrom.carries (h : AddsFrom a.lineIndex old new) (onLine : ρ → Int → ρ) (b : Flow)
    (shift : Int) : Carries onLine a b shift old new := by
  refine ⟨h.filter_lt (Int.le_refl _), old, [], (List.append_nil _).symm, ?_,
    fun r hr => absurd hr List.not_mem_nil⟩
  obtain ⟨added, rfl, -⟩ := h
  rw [List.map_nil, List.append_nil]
  exact List.sublist_append_left _ _

/-- More is added behind a move. -/
theorem Carries.appends (h : Carries onLine a b shift old new) (hbc : Appends b c)
    (hadds : AddsFrom b.lineIndex new new') (hindex : a.lineIndex ≤ b.lineIndex) :
    Carries onLine a c shift old new' := by
  obtain ⟨kept, moved, hold, hsub, hmoved⟩ := h.present
  refine ⟨(hadds.filter_lt (Int.ofNat_le.2 hindex)).trans h.earlier, kept, moved, hold, ?_,
    fun r hr => ?_⟩
  · obtain ⟨added, rfl, -⟩ := hadds
    exact hsub.trans (List.sublist_append_left _ _)
  · obtain ⟨hline, hstart, before, hbefore, hstarts⟩ := hmoved r hr
    exact ⟨hline, hstart, before, hbefore, hstarts.appends hbc⟩

/-- **The records behind a mark** move along with their word. -/
theorem carries_move (hmark : MarksTail old mark a.lineIndex a.wordStart)
    (hmoved : WordMoved a b shift)
    (hlines : ∀ r : ρ, Positioned.line (relocate onLine (a.lineIndex + 1) shift r) =
      a.lineIndex + 1)
    (title emitted : List ρ) (htitle : ∀ r ∈ title, Positioned.line r = a.lineIndex)
    (hnew : new = old.take mark ++ title ++
      (old.drop mark ++ emitted).map (relocate onLine (a.lineIndex + 1) shift)) :
    Carries onLine a b shift old new := by
  have hmap : ∀ r ∈ (old.drop mark ++ emitted).map (relocate onLine (a.lineIndex + 1) shift),
      (a.lineIndex : Int) ≤ Positioned.line r := by
    intro r hr
    obtain ⟨r, -, rfl⟩ := List.mem_map.1 hr
    have hline := hlines r
    omega
  refine ⟨?_, old.take mark, old.drop mark, (List.take_append_drop mark old).symm, ?_, fun r hr =>
    ⟨(hmark.behind r hr).1, (hmark.behind r hr).2, hmoved⟩⟩
  · conv_rhs => rw [← List.take_append_drop mark old]
    rw [hnew, List.filter_append, List.filter_append, List.filter_append,
      filter_earlier_eq_nil fun r hr => (htitle r hr).ge, filter_earlier_eq_nil hmap,
      filter_earlier_eq_nil fun r hr => (hmark.behind r hr).1.ge, List.append_nil]
  · rw [hnew, List.map_append, List.append_assoc]
    refine List.Sublist.append_left ?_ _
    exact (List.sublist_append_left _ _).trans (List.sublist_append_right _ _)

end Records

/-- A step that moves no word only adds. -/
theorem Appends.extends (h : Appends a b) : Extends a b :=
  ⟨h.page, 0, h.spans.carries _ b 0, h.links.carries _ b 0⟩

/-- Steps that only add may follow a move of the last word. -/
theorem Extends.trans_appends (hab : Extends a b) (hbc : Appends b c) : Extends a c := by
  obtain ⟨shift, hspans, hlinks⟩ := hab.records
  have hindex : a.lineIndex ≤ b.lineIndex := hab.page.lines.length_le
  exact ⟨hab.page.trans hbc.page, shift, hspans.appends hbc hbc.spans hindex,
    hlinks.appends hbc hbc.links hindex⟩

/-- **A piece of the last word** stays behind it, or moves along with it. -/
theorem Lengthens.extends_fitWord (h : Lengthens a b) (hmarks : a.MarksWord) :
    Extends a (b.fitWord settings) := by
  rw [fitWord_eq]
  split
  -- The line fits with the piece, and nothing moves.
  · exact h.appends.extends
  · obtain ⟨piece, hcurrent⟩ := h.current
    obtain ⟨spans, hspans, -⟩ := h.spans
    obtain ⟨links, hlinks, -⟩ := h.links
    obtain ⟨title, hbroken, htitle⟩ := exists_broken_spans b
    obtain ⟨hline, hmovedSpans, hmovedLinks⟩ := moveWord_records b
    have hindex := h.lineIndex
    have hstart := h.wordStart
    -- Else the last word, with its piece, stands at the start of the next line.
    have hmoved : WordMoved a b.moveWord ((b.continuation.length : Int) - b.wordStart) := by
      refine ⟨b.continuation, by omega, .inr ⟨by omega, rfl, ?_⟩⟩
      show _ <+: b.continuation ++ b.current.drop b.wordStart
      rw [← hcurrent, hstart, List.drop_append_of_le_length hmarks.start_le, ← List.append_assoc]
      exact List.prefix_append _ _
    -- The line before it is put on the page without it, and its records are taken back and put down
    -- again behind the move.
    have hbrokenPage : b.page.GrowsTo b.broken.page :=
      (b.page.growsTo_links (b.page.links.take b.linkMark)).trans
        (appends_commit { b with
          current := b.brokenLine
          spans := b.spans.take b.spanMark
          page := { b.page with links := b.page.links.take b.linkMark } }).page
    have hmovedPage : b.broken.page.GrowsTo b.moveWord.page := b.broken.page.growsTo_links _
    refine ⟨h.appends.page.trans (hbrokenPage.trans hmovedPage), _,
      carries_move hmarks.spans hmoved (fun r => rfl) title spans (fun r hr => ?_) ?_,
      carries_move hmarks.links hmoved (fun r => rfl) [] links (fun r hr => ?_) ?_⟩
    · rw [htitle r hr, ← hindex]
      rfl
    · rw [hmovedSpans, hbroken, hspans, h.spanMark, hindex,
        List.take_append_of_le_length hmarks.spans.mark_le,
        List.drop_append_of_le_length hmarks.spans.mark_le]
    · exact absurd hr List.not_mem_nil
    · rw [hmovedLinks, hlinks, h.linkMark, hindex,
        List.take_append_of_le_length hmarks.links.mark_le,
        List.drop_append_of_le_length hmarks.links.mark_le, List.append_nil]

/-- **A word** extends the state, whether it is glued to the last one or not. -/
theorem extends_addWord (hmarks : flow.hasWords = true → flow.MarksWord) (hne : word ≠ [])
    (glue : Bool) : Extends flow (flow.addWord settings word glue) := by
  by_cases hglue : (glue && flow.hasWords) = true
  · obtain ⟨rfl, hw⟩ := Bool.and_eq_true_iff.1 hglue
    have hplace : Lengthens flow (flow.unmarked.place (flow.pendingMark ++ word)) := by
      have hpiece := lengthens_place flow.unmarked
        (List.append_ne_nil_of_right_ne_nil flow.pendingMark hne)
      exact ⟨hpiece.page, hpiece.context, hpiece.current, hpiece.spans, hpiece.links, rfl, rfl, rfl,
        rfl, rfl⟩
    rw [addWord_glued hw]
    exact hplace.extends_fitWord (hmarks hw)
  · exact (appends_fresh (by simpa using hglue) hne).extends

/-- **Flow text** extends the state: only its first word may be glued to the last one. -/
theorem extends_addText (hmarks : flow.hasWords = true → flow.MarksWord) (s : Text) :
    Extends flow (flow.addText settings s) := by
  have hglue : ∀ (x : Flow) (glue : Bool), Appends x { x with glue } := fun x glue =>
    appends_of_page (Page.growsTo_refl _) rfl rfl (addsFrom_refl _ _)
      fun h => ⟨h, List.prefix_rfl⟩
  obtain ⟨-, heq⟩ | ⟨-, heq⟩ | ⟨word, words, hne, -, heq⟩ := addText_cases settings flow s
  · rw [heq]
    exact (appends_refl flow).extends
  · rw [heq]
    exact (hglue flow false).extends
  · rw [heq]
    exact (extends_addWord hmarks (hne word List.mem_cons_self) _).trans_appends
      ((appends_addWords words _ fun v hv => hne v (List.mem_cons_of_mem _ hv)).trans (hglue _ _))

/-! ## (5) Tokens -/

/-- A feat extends the state. -/
theorem Feat.extends (h : Feat settings flow token acted) (hbegun : flow.Begun settings)
    (hmarks : flow.hasWords = true → flow.MarksWord) : Extends flow acted := by
  cases h with
  | none => exact (appends_refl flow).extends
  | text s hpre =>
    obtain ⟨headingText, hcollect⟩ := exists_collectHeading flow s
    have hextends : Extends { flow with context := { flow.context with headingText } }
        (addText { flow with context := { flow.context with headingText } } settings s) := by
      refine extends_addText (fun hw => ?_) s
      exact ⟨(hmarks hw).start_le, (hmarks hw).spans, (hmarks hw).links⟩
    obtain ⟨shift, hspans, hlinks⟩ := hextends.records
    rw [hcollect]
    exact ⟨hextends.page, shift, ⟨hspans.earlier, hspans.present⟩, hlinks.earlier, hlinks.present⟩
  | item =>
    have hw : flow.newLine.hasWords = false := newLine_hasWords hbegun
    exact (((newLine_plains flow).appends hbegun).trans (appends_atItem hw)).extends
  | codeEnd token hw codeDepth =>
    have hend : Lengthens flow { flow with codeDepth }.atCodeEnd := by
      have hpiece := lengthens_atCodeEnd { flow with codeDepth } hw
      exact ⟨hpiece.page, hpiece.context, hpiece.current, hpiece.spans, hpiece.links, hw, rfl, rfl,
        rfl, rfl⟩
    exact hend.extends_fitWord (hmarks hw)

/-- **A token only adds** to a state that tokens lead to: the lines and records there are stay as
they are, but for one move of the last word with its spans and links. -/
theorem extends_feed (settings : Settings) (tokens : List Token) (token : Token) :
    Extends (feedAll {} settings tokens) ((feedAll {} settings tokens).feed settings token) := by
  have hbegun := begun_feedAll settings tokens
  obtain ⟨acted, hfeat, hplains⟩ := feed_does settings (feedAll {} settings tokens) token
  have hacted := hbegun.changes hfeat.changes
  exact (hfeat.extends hbegun (marksWord_feedAll settings tokens)).trans_appends
    (hplains.appends hacted)

end Flow

end ChapterLayout
