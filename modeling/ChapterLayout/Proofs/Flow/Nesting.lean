import ChapterLayout.Proofs.Flow.Parts
import ChapterLayout.Proofs.Flow.Raw
import ChapterLayout.Proofs.Flow.Turn
import ChapterLayout.Proofs.Style.StillOpen

/-! # Well-nested elements

Several elements share one flag for their block, and inside the head of a document most tags are
passed over. Nevertheless everything is closed that was opened, if the elements are well nested:

* **`Token.Nested`** — whether the elements of tokens are well nested;
* **`Flow.Opened`**, **`Flow.Closed`** — what an opening and a closing tag do to what is open;
* **`Flow.NothingNew`** — whether nothing is open that was not open before;
* **`Flow.nothingNew_feedAll`** — nothing new is open after well-nested tokens, wherever they stand;
* **`Flow.feedAll_nested`** — so nothing at all is open after a chapter of well-nested tokens. -/

namespace ChapterLayout

/-- Tokens in which every element is closed by a tag of its name, and its content is well nested in
turn. Text and elements that are closed in their own tag may stand anywhere. -/
inductive Token.Nested : List Token → Prop
  | nil : Nested []
  | text (s : Text) {tokens : List Token} (rest : Nested tokens) : Nested (.text s :: tokens)
  | empty (name : Text) (attributes : List Attribute) {tokens : List Token}
      (rest : Nested tokens) : Nested (.empty name attributes :: tokens)
  | element (name : Text) (attributes : List Attribute) {content tokens : List Token}
      (inner : Nested content) (rest : Nested tokens) :
      Nested (.opening name attributes :: (content ++ .closing name :: tokens))

namespace Flow

variable {settings : Settings} {flow a b c d : Flow} {name : Text} {attributes : List Attribute}
  {context : BlockContext}

/-! ## (1) What tags open and close -/

/-- Whether the tags of an element act on the stack of open elements. -/
def tracks (flow : Flow) (name : Text) : Bool :=
  !flow.hides (TagRole.ofName name) && (TagRole.ofName name).isStacked

/-- Whether a tag opens or closes a block of a kind. -/
def touches (flow : Flow) (name : Text) (kind : BlockKind) : Bool :=
  !flow.hides (TagRole.ofName name) && (TagRole.ofName name).kind? == some kind

/-- What an opening tag does to what is open. -/
structure Opened (settings : Settings) (name : Text) (attributes : List Attribute) (a b : Flow) :
    Prop where
  depth : ∀ kind, b.depth kind ≤ a.depth kind + (a.touches name kind).toNat
  styles : b.styles =
    if a.tracks name then a.styles.push name attributes settings.classStyles else a.styles
  /-- A title is opened by its own tag, or by a class of the element that is put on the stack. -/
  title : b.context.inTitle = (a.context.inTitle || TagRole.ofName name == .title) ∧
      b.context.titleSerial = a.context.titleSerial ∨
    a.tracks name = true ∧ a.context.inTitle = false ∧ b.context.inTitle = true ∧
      b.context.titleSerial = some a.styles.nextSerial

/-- What a closing tag does to what is open. -/
structure Closed (name : Text) (a b : Flow) : Prop where
  depth : ∀ kind, b.depth kind ≤ a.depth kind - (a.touches name kind).toNat
  styles : b.styles = if a.tracks name then a.styles.perform (.pop name) else a.styles
  /-- A title ends with its own tag, or with the element that opened it. -/
  title : b.context.inTitle = false ∧ b.context.titleSerial = none ∨
    b.context.inTitle = a.context.inTitle ∧ b.context.titleSerial = a.context.titleSerial ∧
      (TagRole.ofName name = .title → a.context.inTitle = false) ∧
      (a.tracks name = true → ∀ e, a.styles.elements.find? (·.name == name) = some e →
        a.context.titleSerial ≠ some e.serial)

/-- A closing tag gives out no number. -/
theorem Closed.opened (h : Closed name a b) : b.styles.opened = a.styles.opened := by
  rw [h.styles]
  split
  · exact Stack.perform_pop_opened _ name
  · rfl

/-- A closing tag takes the latest element of its name. -/
theorem Closed.elements (h : Closed name a b) : b.styles.elements =
    if a.tracks name then a.styles.elements.eraseP (·.name == name) else a.styles.elements := by
  rw [h.styles]
  split
  · exact Stack.perform_pop_elements _ name
  · rfl

/-- A step that opens nothing. -/
theorem SameBlocks.opened (h : SameBlocks a b) (htracks : a.tracks name = false)
    (hrole : TagRole.ofName name ≠ .title) : Opened settings name attributes a b := by
  refine ⟨fun kind => (h.depth kind).trans_le (Nat.le_add_right _ _), ?_, .inl ⟨?_, h.titleSerial⟩⟩
  · rw [htracks]
    exact h.styles
  · rw [beq_false_of_ne hrole, Bool.or_false]
    exact h.inTitle

/-- A step that closes nothing. -/
theorem SameBlocks.closed (h : SameBlocks a b) (htracks : a.tracks name = false)
    (htouches : ∀ kind, a.touches name kind = false) (hrole : TagRole.ofName name ≠ .title) :
    Closed name a b := by
  refine ⟨fun kind => ?_, ?_, .inr ⟨h.inTitle, h.titleSerial, ?_, ?_⟩⟩
  · rw [htouches]
    exact (h.depth kind).le
  · rw [htracks]
    exact h.styles
  · exact fun htitle => absurd htitle hrole
  · exact fun htracked => absurd (htracked.symm.trans htracks) (by decide)

/-- An opening tag that puts its element on the stack. -/
theorem openTag_stacked (h : flow.tracks name = true) :
    flow.openTag settings name attributes =
      let pushed := ((flow.openBlock settings (TagRole.ofName name)).recordAnchor
        attributes).pushElement settings name attributes
      if !pushed.context.inTitle && opensTitle settings attributes then pushed.openTitle
      else pushed := by
  obtain ⟨hshown, hstacked⟩ := Bool.and_eq_true_iff.1 h
  have hshown' : ¬flow.hides (TagRole.ofName name) = true := by simpa using hshown
  unfold openTag
  dsimp only
  rw [if_neg hshown']
  generalize TagRole.ofName name = role at hstacked
  cases role <;> first | rfl | cases hstacked

/-- A closing tag that takes its element from the stack. -/
theorem closeTag_stacked (h : flow.tracks name = true) :
    flow.closeTag settings name =
      (flow.closeBlock settings (TagRole.ofName name)).popElement name := by
  obtain ⟨hshown, hstacked⟩ := Bool.and_eq_true_iff.1 h
  have hshown' : ¬flow.hides (TagRole.ofName name) = true := by simpa using hshown
  unfold closeTag
  dsimp only
  rw [if_neg hshown']
  generalize TagRole.ofName name = role at hstacked
  cases role <;> first | rfl | cases hstacked

/-- A tag opens or closes a block unless it is hidden. -/
theorem toNat_touches (hshown : flow.hides (TagRole.ofName name) = false) (kind : BlockKind) :
    (flow.touches name kind).toNat = if (TagRole.ofName name).kind? = some kind then 1 else 0 := by
  by_cases hkind : (TagRole.ofName name).kind? = some kind <;> simp [touches, hshown, hkind]

/-- An element is put on the stack, and perhaps a title is opened. -/
theorem opened_openTag_of_tracks (h : flow.tracks name = true) (attributes : List Attribute) :
    Opened settings name attributes flow (flow.openTag settings name attributes) := by
  have hshown : flow.hides (TagRole.ofName name) = false := by simp_all [tracks]
  -- The block is opened first; its context counts one block of its kind more, if it has one.
  have hblock := (openBlock_leadsTo settings flow (TagRole.ofName name)).keep
    (leadsTo_recordAnchor _ attributes)
  obtain ⟨hin, hserial⟩ := (TagRole.ofName name).title_enter flow.context
  have hdepth := flow.context.depth_enter_le (TagRole.ofName name)
  rw [openTag_stacked h]
  dsimp only
  generalize (flow.openBlock settings (TagRole.ofName name)).recordAnchor attributes = block
    at hblock
  have hpushed : (block.pushElement settings name attributes).styles =
      flow.styles.push name attributes settings.classStyles :=
    congrArg (·.push name attributes settings.classStyles) hblock.styles
  have hcontext : (block.pushElement settings name attributes).context =
      (TagRole.ofName name).enter flow.context := hblock.context
  have hnested : (block.pushElement settings name attributes).nestedTables = flow.nestedTables :=
    hblock.nestedTables
  have hcount : ∀ kind, (block.pushElement settings name attributes).depth kind ≤
      flow.depth kind + (flow.touches name kind).toNat := by
    intro kind
    have hle := hdepth kind
    rw [depth, depth, hcontext, hnested, toNat_touches hshown]
    omega
  -- Then a class may open a title, which changes the title and no other block.
  split
  · rename_i htitle
    have hopen := leadsOnlyTo_openTitle (block.pushElement settings name attributes)
    have hclosed : flow.context.inTitle = false := by
      rw [hcontext, hin] at htitle
      simp_all
    refine ⟨fun kind => ?_, ?_, .inr ⟨h, hclosed, congrArg _ hopen.context, ?_⟩⟩
    · have hle := hcount kind
      rwa [depth, hopen.context, BlockContext.depth_setTitle, hopen.nestedTables]
    · rw [h]
      exact hopen.styles.trans hpushed
    · rw [hopen.context, hpushed]
      rfl
  · refine ⟨hcount, ?_, .inl ⟨?_, ?_⟩⟩
    · rw [h]
      exact hpushed
    · rw [hcontext, hin]
    · rw [hcontext, hserial]

/-- An element is taken from the stack, and the title ends with the element that opened it. -/
theorem popElement_spec (flow : Flow) (name : Text) :
    (flow.popElement name).styles = flow.styles.perform (.pop name) ∧
      (∀ kind, (flow.popElement name).depth kind = flow.depth kind) ∧
      ((flow.popElement name).context.inTitle = false ∧
          (flow.popElement name).context.titleSerial = none ∨
        (flow.popElement name).context = flow.context ∧
          ∀ e, flow.styles.elements.find? (·.name == name) = some e →
            flow.context.titleSerial ≠ some e.serial) := by
  -- Closing a name finds an element of that name or does nothing.
  cases hfind : flow.styles.elements.find? (·.name == name) with
  | none =>
    have hpop : flow.styles.pop? name = none := by
      rw [Stack.pop?, hfind]
      rfl
    simp only [popElement, Stack.perform, hpop]
    exact ⟨rfl, fun _ => rfl, .inr ⟨rfl, fun e he => absurd he.symm (Option.some_ne_none e)⟩⟩
  | some element =>
    let rest := flow.styles.leave (flow.styles.elements.eraseP (·.name == name)) element.serial
    have hpop : flow.styles.pop? name = some (element.serial, rest) := by
      rw [Stack.pop?, hfind]
      rfl
    simp only [popElement, Stack.perform, hpop]
    -- The title ends with the element if it was opened by it.
    split
    · have hclose := leadsOnlyTo_closeTitle { flow with styles := rest }
      refine ⟨hclose.styles, fun kind => ?_, .inl ⟨?_, ?_⟩⟩
      · rw [depth, hclose.context, BlockContext.depth_setTitle, hclose.nestedTables]
        rfl
      · rw [hclose.context]
      · rw [hclose.context]
    · rename_i hserial
      refine ⟨rfl, fun _ => rfl, .inr ⟨rfl, fun e he => ?_⟩⟩
      obtain rfl : element = e := Option.some.inj he
      exact hserial

/-- An element is taken from the stack after its block is closed. -/
theorem closed_closeTag_of_tracks (h : flow.tracks name = true) :
    Closed name flow (flow.closeTag settings name) := by
  have hblock := closeBlock_leadsTo settings flow (TagRole.ofName name)
  have hshown : flow.hides (TagRole.ofName name) = false := by simp_all [tracks]
  have hstacked : (TagRole.ofName name).isStacked = true := by simp_all [tracks]
  have hdepth := fun kind =>
    flow.context.depth_leave_le (TagRole.ofName name) kind hstacked
  obtain ⟨hin, hserial⟩ := (TagRole.ofName name).title_leave flow.context
  rw [closeTag_stacked h]
  generalize flow.closeBlock settings (TagRole.ofName name) = block at hblock
  obtain ⟨hstyles, hcount, htitle⟩ := popElement_spec block name
  rw [hblock.styles] at hstyles htitle
  refine ⟨fun kind => ?_, ?_, ?_⟩
  -- Tables are counted apart from the other blocks, and no element on the stack is a table.
  · have hle := hdepth kind
    have htable := TagRole.kind?_ne_table hstacked
    rw [hcount, depth, depth, hblock.context, hblock.nestedTables, toNat_touches hshown]
    by_cases hkind : kind = .table
    · rw [hkind] at hle ⊢
      rw [if_neg htable] at hle ⊢
      exact Nat.add_le_add_right hle _
    · rw [if_neg hkind, Nat.add_zero, Nat.add_zero]
      exact hle
  · rw [h]
    exact hstyles
  -- The title ends with its element, or by the tag of a title, or not at all.
  · rcases htitle with htitle | ⟨hcontext, hother⟩
    · exact .inl htitle
    · rw [hblock.context] at hcontext hother
      by_cases hends : (flow.context.inTitle && TagRole.ofName name == .title) = true
      · refine .inl ⟨?_, ?_⟩
        · rw [hcontext, hin]
          simp_all
        · rw [hcontext, hserial, if_pos hends]
      · rw [hserial, if_neg hends] at hother
        refine .inr ⟨?_, ?_, fun htitle => ?_, fun _ => hother⟩
        · rw [hcontext, hin]
          cases hopen : flow.context.inTitle <;> simp_all
        · rw [hcontext, hserial, if_neg hends]
        · simp_all

/-- A shown tag that does not act on the stack is counted, or changes a table. -/
theorem openTag_untracked (settings : Settings) (attributes : List Attribute)
    (hshown : flow.hides (TagRole.ofName name) = false)
    (h : (TagRole.ofName name).isStacked = false) :
    TagRole.ofName name = .raw ∧ flow.openTag settings name attributes = flow.enterRaw ∨
      TagRole.ofName name = .table ∧
        flow.openTag settings name attributes = flow.openTable.recordAnchor attributes ∨
      TagRole.ofName name = .tablePart ∧ flow.openTag settings name attributes =
        (flow.changeTablePart name false).recordAnchor attributes := by
  have hshown' : ¬flow.hides (TagRole.ofName name) = true := by simpa using hshown
  unfold openTag
  dsimp only
  rw [if_neg hshown']
  generalize TagRole.ofName name = role at h
  cases role with
  | raw => exact .inl ⟨rfl, rfl⟩
  | table => exact .inr (.inl ⟨rfl, rfl⟩)
  | tablePart => exact .inr (.inr ⟨rfl, rfl⟩)
  | _ => cases h

/-- A shown tag that does not act on the stack is counted, or changes a table. -/
theorem closeTag_untracked (settings : Settings)
    (hshown : flow.hides (TagRole.ofName name) = false)
    (h : (TagRole.ofName name).isStacked = false) :
    TagRole.ofName name = .raw ∧ flow.closeTag settings name = flow.leaveRaw ∨
      TagRole.ofName name = .table ∧ flow.closeTag settings name = flow.closeTable settings ∨
      TagRole.ofName name = .tablePart ∧
        flow.closeTag settings name = flow.changeTablePart name true := by
  have hshown' : ¬flow.hides (TagRole.ofName name) = true := by simpa using hshown
  unfold closeTag
  dsimp only
  rw [if_neg hshown']
  generalize TagRole.ofName name = role at h
  cases role with
  | raw => exact .inl ⟨rfl, rfl⟩
  | table => exact .inr (.inl ⟨rfl, rfl⟩)
  | tablePart => exact .inr (.inr ⟨rfl, rfl⟩)
  | _ => cases h

/-- A hidden tag opens and closes nothing. -/
theorem skips_of_hides (settings : Settings) (h : flow.hides (TagRole.ofName name) = true)
    (attributes : List Attribute) :
    flow.openTag settings name attributes = flow ∧ flow.closeTag settings name = flow ∧
      flow.tracks name = false ∧ (∀ kind, flow.touches name kind = false) ∧
      TagRole.ofName name ≠ .title := by
  refine ⟨?_, ?_, ?_, fun kind => ?_, fun htitle => ?_⟩
  · simp [openTag, h]
  · simp [closeTag, h]
  · simp [tracks, h]
  · simp [touches, h]
  · simp [hides, htitle] at h

/-- **An opening tag** opens at most its block, its element and a title. -/
theorem opened_openTag (settings : Settings) (flow : Flow) (name : Text)
    (attributes : List Attribute) :
    Opened settings name attributes flow (flow.openTag settings name attributes) := by
  by_cases hhidden : flow.hides (TagRole.ofName name) = true
  · obtain ⟨hskip, -, htracks, -, hrole⟩ :=
      skips_of_hides settings hhidden attributes
    rw [hskip]
    exact (sameBlocks_refl flow).opened htracks hrole
  -- A shown tag that is not stacked opens raw content, a table or a part of one.
  have hshown : flow.hides (TagRole.ofName name) = false := by simpa using hhidden
  by_cases hstacked : (TagRole.ofName name).isStacked = true
  · exact opened_openTag_of_tracks (by simp [tracks, hshown, hstacked]) attributes
  have htracks : flow.tracks name = false := by simp [tracks, hstacked]
  rcases openTag_untracked settings attributes hshown
    (by simpa using hstacked) with ⟨hrole, heq⟩ | ⟨hrole, heq⟩ | ⟨hrole, heq⟩
  · rw [heq]
    refine ⟨fun kind => ?_, ?_, .inl ⟨?_, rfl⟩⟩
    · rw [toNat_touches hshown, hrole]
      cases kind <;> simp [TagRole.kind?, depth, BlockContext.depth, enterRaw, updateContext]
    · rw [htracks]
      rfl
    · simp [hrole, enterRaw, updateContext]
  · obtain ⟨htitle, hdepth⟩ := openTable_spec flow
    have hanchor := (leadsTo_recordAnchor flow.openTable attributes).sameBlocks
    rw [heq]
    refine ⟨fun kind => ?_, ?_, .inl ⟨?_, ?_⟩⟩
    · rw [hanchor.depth, toNat_touches hshown, hrole]
      refine (hdepth kind).trans_eq ?_
      cases kind <;> simp [TagRole.kind?]
    · rw [htracks]
      exact hanchor.styles.trans htitle.styles
    · rw [hanchor.inTitle, htitle.inTitle, hrole]
      simp
    · rw [hanchor.titleSerial, htitle.titleSerial]
  · rw [heq]
    have hpart := (sameBlocks_changeTablePart flow name false).trans
      (leadsTo_recordAnchor _ attributes).sameBlocks
    exact hpart.opened htracks (by rw [hrole]; decide)

/-- **A closing tag** closes its block and its element, and the title that either opened. -/
theorem closed_closeTag (settings : Settings) (flow : Flow) (name : Text) :
    Closed name flow (flow.closeTag settings name) := by
  by_cases hhidden : flow.hides (TagRole.ofName name) = true
  · obtain ⟨-, hskip, htracks, htouches, hrole⟩ := skips_of_hides settings hhidden []
    rw [hskip]
    exact (sameBlocks_refl flow).closed htracks htouches hrole
  -- A shown tag that is not stacked closes raw content, a table or a part of one.
  have hshown : flow.hides (TagRole.ofName name) = false := by simpa using hhidden
  by_cases hstacked : (TagRole.ofName name).isStacked = true
  · exact closed_closeTag_of_tracks (by simp [tracks, hshown, hstacked])
  have htracks : flow.tracks name = false := by simp [tracks, hstacked]
  have hkeep : ∀ e, flow.tracks name = true →
      flow.styles.elements.find? (·.name == name) = some e →
        flow.context.titleSerial ≠ some e.serial :=
    fun e h => absurd (h.symm.trans htracks) (by decide)
  rcases closeTag_untracked settings hshown (by simpa using hstacked) with
    ⟨hrole, heq⟩ | ⟨hrole, heq⟩ | ⟨hrole, heq⟩
  · rw [heq]
    refine ⟨fun kind => ?_, ?_, .inr ⟨rfl, rfl, fun h => ?_, fun h e => hkeep e h⟩⟩
    · rw [toNat_touches hshown, hrole]
      cases kind <;> simp [TagRole.kind?, depth, BlockContext.depth, leaveRaw, updateContext]
    · rw [htracks]
      rfl
    · exact absurd (hrole.symm.trans h) (by decide)
  · obtain ⟨htitle, hdepth⟩ := closeTable_spec settings flow
    rw [heq]
    refine ⟨fun kind => (hdepth kind).trans_eq ?_, ?_,
      .inr ⟨htitle.inTitle, htitle.titleSerial, fun h => ?_, fun h e => hkeep e h⟩⟩
    · rw [toNat_touches hshown, hrole]
      cases kind <;> simp [TagRole.kind?]
    · rw [htracks]
      exact htitle.styles
    · exact absurd (hrole.symm.trans h) (by decide)
  · rw [heq]
    refine (sameBlocks_changeTablePart flow name true).closed htracks (fun kind => ?_) ?_
    · cases kind <;> simp [touches, hrole, TagRole.kind?]
    · rw [hrole]
      decide

/-! ## (2) Titles and the elements that opened them -/

/-- Whether every open element has a number that was given out, and the element whose class opened
the title is still open. -/
structure TitleOwned (flow : Flow) : Prop where
  serial_le : ∀ e ∈ flow.styles.elements, e.serial ≤ flow.styles.opened
  owner : ∀ serial, flow.context.titleSerial = some serial →
    flow.context.inTitle = true ∧ ∃ e ∈ flow.styles.elements, e.serial = serial

/-- A state with the same open blocks still owns its title. -/
theorem SameBlocks.titleOwned (h : SameBlocks a b) (ha : a.TitleOwned) : b.TitleOwned := by
  refine ⟨?_, fun serial hserial => ?_⟩
  · rw [h.styles]
    exact ha.serial_le
  · rw [h.inTitle, h.styles]
    exact ha.owner serial (h.titleSerial ▸ hserial)

/-- An opening tag leaves the element whose class opened the title open. -/
theorem Opened.titleOwned (h : Opened settings name attributes a b) (ha : a.TitleOwned) :
    b.TitleOwned := by
  have hstyles := h.styles
  split at hstyles
  · refine ⟨?_, fun serial hserial => ?_⟩
    · rw [hstyles]
      intro e he
      rcases List.mem_cons.1 he with rfl | he
      · exact le_rfl
      · exact (ha.serial_le e he).trans (Nat.le_succ _)
    · rw [hstyles]
      rcases h.title with ⟨hin, hsame⟩ | ⟨-, -, hin, hnew⟩
      · obtain ⟨htitle, e, he, heq⟩ := ha.owner serial (hsame ▸ hserial)
        exact ⟨by simp [hin, htitle], e, List.mem_cons_of_mem _ he, heq⟩
      · obtain rfl : a.styles.nextSerial = serial := Option.some.inj (hnew.symm.trans hserial)
        exact ⟨hin, _, List.mem_cons_self, rfl⟩
  · rename_i htracks
    refine ⟨?_, fun serial hserial => ?_⟩
    · rw [hstyles]
      exact ha.serial_le
    · rw [hstyles]
      rcases h.title with ⟨hin, hsame⟩ | ⟨htracked, -⟩
      · obtain ⟨htitle, howner⟩ := ha.owner serial (hsame ▸ hserial)
        exact ⟨by simp [hin, htitle], howner⟩
      · exact absurd htracked htracks

/-- An element stays when another one is taken away. -/
theorem mem_eraseP_of_ne {l : List OpenElement} {p : OpenElement → Bool} {e : OpenElement}
    (he : e ∈ l) (hne : ∀ found, l.find? p = some found → e ≠ found) : e ∈ l.eraseP p := by
  cases hfind : l.find? p with
  | none =>
    rw [List.eraseP_of_forall_not (List.find?_eq_none.1 hfind)]
    exact he
  | some found =>
    obtain ⟨hp, before, after, rfl, hbefore⟩ := List.find?_eq_some_iff_append.1 hfind
    have hne' := hne found hfind
    rw [List.eraseP_append_right _ (by simpa using hbefore), List.eraseP_cons_of_pos hp]
    simp_all

/-- A closing tag only takes elements away. -/
theorem Closed.sublist (h : Closed name a b) : b.styles.elements.Sublist a.styles.elements := by
  rw [h.elements]
  split
  · exact List.eraseP_sublist
  · exact List.Sublist.refl _

/-- A closing tag closes the title with the element whose class opened it, or leaves both open. -/
theorem Closed.titleOwned (h : Closed name a b) (ha : a.TitleOwned) : b.TitleOwned := by
  refine ⟨fun e he => ?_, fun serial hserial => ?_⟩
  · rw [h.opened]
    exact ha.serial_le e (h.sublist.subset he)
  rcases h.title with ⟨-, hnone⟩ | ⟨hin, hsame, -, hother⟩
  · exact nomatch hnone.symm.trans hserial
  · obtain ⟨htitle, e, he, rfl⟩ := ha.owner serial (hsame ▸ hserial)
    refine ⟨hin.trans htitle, e, ?_, rfl⟩
    rw [h.elements]
    split
    · rename_i htracks
      refine mem_eraseP_of_ne he fun found hfound heq => ?_
      exact hother htracks found hfound (heq ▸ hsame.symm.trans hserial)
    · exact he

/-- The element whose class opened the title is still open after any token. -/
theorem titleOwned_feed (ha : flow.TitleOwned) (settings : Settings) (token : Token) :
    (flow.feed settings token).TitleOwned := by
  cases token with
  | text s => exact (sameBlocks_feedText flow s).titleOwned ha
  | opening name attributes => exact (opened_openTag settings flow name attributes).titleOwned ha
  | closing name => exact (closed_closeTag settings flow name).titleOwned ha
  | empty name attributes => exact (sameBlocks_emptyTag flow name attributes).titleOwned ha

/-- The element whose class opened the title is still open after any run. -/
theorem titleOwned_feedAll (ha : flow.TitleOwned) (settings : Settings) (tokens : List Token) :
    (flow.feedAll settings tokens).TitleOwned := by
  induction tokens generalizing flow with
  | nil => exact ha
  | cons token tokens ih => exact ih (titleOwned_feed ha settings token)

/-- A title that a class opened is open in every state that tokens lead to as long as its element
is. -/
theorem titleOwned_layout (settings : Settings) (tokens : List Token) :
    (feedAll {} settings tokens).TitleOwned := by
  refine titleOwned_feedAll ⟨fun e he => ?_, fun serial h => ?_⟩ settings tokens
  · exact absurd he List.not_mem_nil
  · exact absurd h.symm (Option.some_ne_none serial)

/-! ## (3) Runs -/

/-- A token opens an element, closes one, or leaves the stack as it is. -/
theorem exists_perform_feed (settings : Settings) (flow : Flow) (token : Token) :
    ∃ ops, (flow.feed settings token).styles = flow.styles.performAll ops := by
  cases token with
  | text s => exact ⟨[], (sameBlocks_feedText flow s).styles⟩
  | opening name attributes =>
    have hstyles := (opened_openTag settings flow name attributes).styles
    split at hstyles
    · exact ⟨[.push name attributes settings.classStyles], hstyles⟩
    · exact ⟨[], hstyles⟩
  | closing name =>
    have hstyles := (closed_closeTag settings flow name).styles
    split at hstyles
    · exact ⟨[.pop name], hstyles⟩
    · exact ⟨[], hstyles⟩
  | empty name attributes => exact ⟨[], (sameBlocks_emptyTag flow name attributes).styles⟩

/-- **The stack of a run** is one that openings and closings of elements lead to. -/
theorem exists_performAll_feedAll (settings : Settings) (flow : Flow) (tokens : List Token) :
    ∃ ops, (flow.feedAll settings tokens).styles = flow.styles.performAll ops := by
  induction tokens generalizing flow with
  | nil => exact ⟨[], rfl⟩
  | cons token tokens ih =>
    obtain ⟨first, hfirst⟩ := exists_perform_feed settings flow token
    obtain ⟨rest, hrest⟩ := ih (flow.feed settings token)
    refine ⟨first ++ rest, ?_⟩
    rw [Stack.performAll_append, ← hfirst]
    exact hrest

/-- Whether nothing is open in the second state that was not open in the first. -/
structure NothingNew (a b : Flow) : Prop where
  elements : b.styles.elements.Sublist a.styles.elements
  depth : ∀ kind, b.depth kind ≤ a.depth kind
  title : b.context.inTitle = true →
    a.context.inTitle = true ∧ b.context.titleSerial = a.context.titleSerial

/-- What opens nothing new, twice, opens nothing new. -/
theorem NothingNew.trans (hab : NothingNew a b) (hbc : NothingNew b c) : NothingNew a c := by
  refine ⟨hbc.elements.trans hab.elements, fun kind => (hbc.depth kind).trans (hab.depth kind),
    fun h => ?_⟩
  obtain ⟨hb, hserial⟩ := hbc.title h
  obtain ⟨ha, hserial'⟩ := hab.title hb
  exact ⟨ha, hserial.trans hserial'⟩

/-- A state with the same open blocks has nothing new open. -/
theorem SameBlocks.nothingNew (h : SameBlocks a b) : NothingNew a b := by
  refine ⟨?_, fun kind => (h.depth kind).le, fun hin => ⟨h.inTitle ▸ hin, h.titleSerial⟩⟩
  rw [h.styles]

/-- A tag that is shown when its element is opened is shown when the element is closed. -/
theorem shown_of_nothingNew (hopen : Opened settings name attributes a b) (hbc : NothingNew b c)
    (h : a.hides (TagRole.ofName name) = false) : c.hides (TagRole.ofName name) = false := by
  have hcount := (hbc.depth .head).trans (hopen.depth .head)
  rw [toNat_touches h] at hcount
  cases hrole : TagRole.ofName name with
  | head => simp [hides]
  | title => simp [hides]
  | _ =>
    have hshown : a.context.inHead = false := by simpa [hides, hrole] using h
    simp [depth, BlockContext.depth, hrole, TagRole.kind?, hshown] at hcount
    simp [hides, hcount]

/-- A title that is open behind an element was open before it. -/
theorem title_element (ha : a.TitleOwned) (hc : c.TitleOwned)
    (hopen : Opened settings name attributes a b) (hbc : NothingNew b c)
    (hclose : Closed name c d) (htracks : a.tracks name = true → c.tracks name = true)
    (hin : d.context.inTitle = true) :
    a.context.inTitle = true ∧ d.context.titleSerial = a.context.titleSerial := by
  rcases hclose.title with ⟨hnot, -⟩ | ⟨hcd, hserial, hrole, hother⟩
  · exact nomatch hnot.symm.trans hin
  have hcin : c.context.inTitle = true := hcd.symm.trans hin
  obtain ⟨hbin, hserial'⟩ := hbc.title hcin
  rcases hopen.title with ⟨hab, hserial''⟩ | ⟨htracked, -, -, hnew⟩
  · refine ⟨?_, hserial.trans (hserial'.trans hserial'')⟩
    have hnotTitle : TagRole.ofName name ≠ .title := fun h => nomatch (hrole h).symm.trans hcin
    simpa [hbin, hnotTitle] using hab.symm
  · -- The element opened the title. It is still the first of its name, so its tag ends the title.
    have howner := hserial'.trans hnew
    obtain ⟨-, e, he, hnumber⟩ := hc.owner _ howner
    have hsub := hbc.elements
    rw [hopen.styles, if_pos htracked, Stack.push] at hsub
    generalize hl : c.styles.elements = l at hsub he
    cases hsub with
    | cons _ hsub =>
      have hle := ha.serial_le e (hsub.subset he)
      rw [hnumber] at hle
      exact absurd hle (Nat.not_succ_le_self _)
    | cons_cons _ hsub =>
      have hfind : c.styles.elements.find? (·.name == name) =
          some ⟨name, a.styles.nextSerial⟩ := by
        rw [hl]
        exact List.find?_cons_of_pos (beq_self_eq_true name)
      exact absurd howner (hother (htracks htracked) _ hfind)

/-- **An element** leaves nothing new open, if its content does not. -/
theorem nothingNew_element (ha : a.TitleOwned) (hc : c.TitleOwned)
    (hopen : Opened settings name attributes a b) (hbc : NothingNew b c)
    (hclose : Closed name c d) : NothingNew a d := by
  -- What is shown when the element opens is still shown when it closes, so both tags act alike.
  have htracks : a.tracks name = true → c.tracks name = true := by
    simp only [tracks, Bool.and_eq_true, Bool.not_eq_true']
    exact fun h => ⟨shown_of_nothingNew hopen hbc h.1, h.2⟩
  have htouches : ∀ kind, a.touches name kind = true → c.touches name kind = true := by
    simp only [touches, Bool.and_eq_true, Bool.not_eq_true']
    exact fun kind h => ⟨shown_of_nothingNew hopen hbc h.1, h.2⟩
  refine ⟨?_, fun kind => ?_, title_element ha hc hopen hbc hclose htracks⟩
  -- The closing tag takes the latest element of its name away, which is the one pushed if the
  -- content left nothing new.
  · have hsub := hbc.elements
    rw [hopen.styles] at hsub
    split at hsub
    · rename_i htracked
      have hfirst : (a.styles.push name attributes settings.classStyles).elements.eraseP
          (·.name == name) = a.styles.elements := List.eraseP_cons_of_pos (beq_self_eq_true name)
      rw [hclose.elements, if_pos (htracks htracked), ← hfirst]
      exact hsub.eraseP
    · exact hclose.sublist.trans hsub
  -- What the opening tag adds to the depth of a kind, the closing tag takes away.
  · have hb := hopen.depth kind
    have hc := hbc.depth kind
    have hd := hclose.depth kind
    have hle : (a.touches name kind).toNat ≤ (c.touches name kind).toNat := by
      cases htouched : a.touches name kind with
      | false => exact Nat.zero_le _
      | true => rw [htouches kind htouched]
    omega

/-- **Well-nested tokens** leave nothing new open. -/
theorem nothingNew_feedAll {tokens : List Token} (h : Token.Nested tokens) (settings : Settings)
    (flow : Flow) (howned : flow.TitleOwned) : NothingNew flow (flow.feedAll settings tokens) := by
  induction h generalizing flow with
  | nil => exact (sameBlocks_refl flow).nothingNew
  | text s _ ih =>
    exact (sameBlocks_feedText flow s).nothingNew.trans
      (ih _ (titleOwned_feed howned settings (.text s)))
  | empty name attributes _ ih =>
    exact (sameBlocks_emptyTag flow name attributes).nothingNew.trans
      (ih _ (titleOwned_feed howned settings (.empty name attributes)))
  -- Behind the opening tag the title is still owned, and so it is behind the content.
  | element name attributes _ _ ihInner ihRest =>
    rename_i content tokens _ _
    have hopen := opened_openTag settings flow name attributes
    have hopened := titleOwned_feed howned settings (.opening name attributes)
    have hinner := ihInner _ hopened
    have hinside := titleOwned_feedAll hopened settings content
    have hclose := closed_closeTag settings
      ((flow.openTag settings name attributes).feedAll settings content) name
    have helement := nothingNew_element howned hinside hopen hinner hclose
    have hrest := ihRest _ (titleOwned_feed hinside settings (.closing name))
    rw [feedAll, List.foldl_cons, List.foldl_append, List.foldl_cons]
    exact helement.trans hrest

/-- **Everything is closed** after a chapter whose elements are well nested. -/
theorem feedAll_nested {tokens : List Token} (h : Token.Nested tokens) (settings : Settings) :
    (feedAll {} settings tokens).context.isEmpty = true ∧
      (feedAll {} settings tokens).styles.elements.length = 0 ∧
      (feedAll {} settings tokens).styles.active = [] ∧
      (feedAll {} settings tokens).context.titleSerial = none := by
  have hstart : TitleOwned {} :=
    ⟨fun _ he => absurd he List.not_mem_nil, fun _ h => absurd h.symm (Option.some_ne_none _)⟩
  have howned := titleOwned_feedAll hstart settings tokens
  obtain ⟨helements, hdepth, htitle⟩ := nothingNew_feedAll h settings {} hstart
  obtain ⟨ops, hops⟩ := exists_performAll_feedAll settings {} tokens
  generalize feedAll {} settings tokens = flow at howned helements hdepth htitle hops
  -- Nothing is open that was not open at the start, where nothing was.
  have hnil : flow.styles.elements = [] := List.sublist_nil.1 helements
  have hclosed : flow.context.inTitle = false := by
    by_contra hopen
    exact absurd (htitle (by simpa using hopen)).1 (by decide)
  have hnone : ∀ kind, flow.context.depth kind = 0 := by
    intro kind
    have hzero : depth {} kind = 0 := by cases kind <;> rfl
    exact Nat.le_zero.1 ((Nat.le_add_right _ _).trans ((hdepth kind).trans_eq hzero))
  have hactive : flow.styles.active = [] := by
    rw [hops] at hnil ⊢
    exact Stack.active_performAll_of_nil hnil
  -- Each part of the context is a depth that is zero.
  refine ⟨?_, congrArg List.length hnil, hactive, ?_⟩
  · have hlists : flow.context.lists = [] := List.length_eq_zero_iff.1 (hnone .list)
    have hquotes : flow.context.quoteDepth = 0 := hnone .quote
    have hheading : flow.context.headingLevel = 0 :=
      (Nat.min_eq_zero_iff.1 (hnone .heading)).resolve_right Nat.one_ne_zero
    have hpre : flow.context.inPre = false := Bool.toNat_eq_zero.1 (hnone .pre)
    have hdescription : flow.context.inDescription = false :=
      Bool.toNat_eq_zero.1 (hnone .description)
    have hhead : flow.context.inHead = false := Bool.toNat_eq_zero.1 (hnone .head)
    have hraw : flow.context.rawDepth = 0 := hnone .raw
    have htable : flow.context.table.inTable = false := Bool.toNat_eq_zero.1 (hnone .table)
    simp [BlockContext.isEmpty, BlockContext.inHeading, hlists, hquotes, hheading, hpre,
      hdescription, hhead, hraw, htable, hclosed]
  -- Without an open title none has an owner.
  · cases hserial : flow.context.titleSerial with
    | none => rfl
    | some serial =>
      exact absurd (hclosed.symm.trans (howned.owner serial hserial).1) Bool.false_ne_true

/-- A head in a head, which is closed by the first of the two tags, a title in a title that a class
opened, and a table in a table. -/
theorem feedAll_nested_odd :
    let tokens : List Token :=
      [.opening "head".toList [], .opening "head".toList [], .closing "head".toList,
        .closing "head".toList,
       .opening ['p'] [⟨"class".toList, "t".toList⟩], .opening "title".toList [], .text ['x'],
        .closing "title".toList, .closing ['p'],
       .opening "table".toList [], .opening "table".toList [], .closing "table".toList,
        .closing "table".toList]
    let settings : Settings := { classStyles := [("t".toList, Group.title)] }
    Token.Nested tokens ∧ (feedAll {} settings tokens).context.isEmpty = true ∧
      (feedAll {} settings tokens).styles.elements.length = 0 ∧
      (feedAll {} settings tokens).styles.active = [] ∧
      (feedAll {} settings tokens).context.titleSerial = none := by
  intro tokens settings
  have hheads : ∀ {rest}, Token.Nested rest → Token.Nested (.opening "head".toList [] ::
      .opening "head".toList [] :: .closing "head".toList :: .closing "head".toList :: rest) :=
    fun h => .element _ _ (.element _ _ .nil .nil) h
  have htables : Token.Nested [.opening "table".toList [], .opening "table".toList [],
      .closing "table".toList, .closing "table".toList] :=
    .element _ _ (.element _ _ .nil .nil) .nil
  have htitles : ∀ {rest}, Token.Nested rest → Token.Nested
      (.opening ['p'] [⟨"class".toList, "t".toList⟩] :: .opening "title".toList [] ::
        .text ['x'] :: .closing "title".toList :: .closing ['p'] :: rest) :=
    fun h => .element _ _ (.element _ _ (.text _ .nil) .nil) h
  have hnested : Token.Nested tokens := hheads (htitles htables)
  exact ⟨hnested, feedAll_nested hnested settings⟩

end Flow

end ChapterLayout
