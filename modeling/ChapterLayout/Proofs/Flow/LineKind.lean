import Mathlib.Data.List.Forall2
import ChapterLayout.Proofs.Flow.Fitting
import ChapterLayout.Proofs.Flow.Reflow
import ChapterLayout.Proofs.Flow.Turn

/-! # The kinds of the lines of a page

A line of a page was filled with words in some blocks, or it is a line of preformatted text, or it
was put on the page as it is: the label of an image, a rule, a line of a table. Following the tokens
tells which kind every line is of:

* **`LineKind`**, **`LineKind.Describes`** — the kinds, and what a line of a kind looks like;
* **`Flow.lineKinds`** — the kinds of the lines of a page, in their order;
* **`Flow.FilledFrom`** — what a token does to the lines after it ended the line before;
* **`Flow.run_lines_fit`** — every line of a page looks like its kind. Lines that are filled with
  words are as wide as the page at most, or hold a single word behind their start. -/

namespace ChapterLayout

/-! ## (1) Kinds of lines -/

/-- The kind of a line. -/
inductive LineKind where
  /-- A line that is filled with words in the blocks of a context, and that wraps to lines which
  start with `start`. -/
  | flow (context : BlockContext) (start : Text)
  /-- A line of preformatted text, in which no words are laid out. -/
  | preformatted
  /-- A line that is put on the page as it is. -/
  | apart (line : Line)

/-- Whether a line looks like its kind. -/
def LineKind.Describes (settings : Settings) : LineKind → Line → Prop
  | .flow context start, line => context.FitsIn settings start line
  | .preformatted, _ => True
  | .apart line, line' => line' = line

namespace Flow

variable {settings : Settings} {flow flow' mid acted a b c : Flow} {token : Token}
  {apart : List Line} {line : Line}

/-- The kind of the line that is being filled. -/
def kind (flow : Flow) (settings : Settings) : LineKind :=
  if flow.context.inPre then .preformatted else .flow flow.context (flow.wrapStart settings)

/-- The state in which a token has ended the line before: an item has begun its own line then, and
lines of their own are yet to come. -/
def ended (flow : Flow) (settings : Settings) (token : Token) (apart : List Line) : Flow :=
  if flow.opensItem token then flow.startItem settings
  else if apart.isEmpty then flow
  else flow.newLine

/-- The kinds of the lines between two states, with `mid` and then the lines `apart` between
them. -/
def kindsBetween (settings : Settings) (flow mid : Flow) (apart : List Line) (flow' : Flow) :
    List LineKind :=
  List.replicate (mid.lineIndex - flow.lineIndex) (flow.kind settings) ++
    (apart.map .apart ++
      List.replicate (flow'.lineIndex - (mid.lineIndex + apart.length)) (mid.kind settings))

/-- The kinds of the lines that a token puts on the page. -/
def tokenKinds (flow : Flow) (settings : Settings) (token : Token) : List LineKind :=
  let apart := flow.apartLines settings token
  kindsBetween settings flow (flow.ended settings token apart) apart (flow.feed settings token)

/-- The state at the end of a chapter after the line of preformatted text that is open, if one
is. -/
def flushPre (flow : Flow) (settings : Settings) : Flow :=
  if flow.context.inPre then flow.endPreLine settings else flow

/-- The state at the end of a chapter in which the line before is ended, if a table is still open
and its lines are yet to come. -/
def flushEnded (flow : Flow) (settings : Settings) : Flow :=
  if flow.context.table.inTable then (flow.flushPre settings).newLine else flow

/-- The kinds of the lines that are completed at the end of a chapter. -/
def flushKinds (flow : Flow) (settings : Settings) : List LineKind :=
  kindsBetween settings flow (flow.flushEnded settings)
    (if flow.context.table.inTable then flow.tableLines settings else []) (flow.flush settings)

/-- The kinds of the lines that come after a state. -/
def lineKinds (settings : Settings) : Flow → List Token → List LineKind
  | flow, [] => flow.flushKinds settings
  | flow, token :: tokens =>
    flow.tokenKinds settings token ++ lineKinds settings (flow.feed settings token) tokens

/-- A blank line is of the kind of every state. -/
theorem describes_nil (flow : Flow) : (flow.kind settings).Describes settings [] := by
  unfold kind
  split
  · trivial
  · exact BlockContext.fitsIn_nil settings flow.context _

/-- **The line that is being filled** looks like its kind. -/
theorem Fitted.describes_current (h : flow.Fitted settings) :
    (flow.kind settings).Describes settings flow.current := by
  unfold kind
  split
  · trivial
  · rename_i hpre
    exact h.fitsIn_current (by simpa using hpre)

/-- In blocks in which lines start alike, lines are of one kind. -/
theorem describes_of_kind (h : (a.kind settings).Describes settings line)
    (hpre : a.context.inPre = b.context.inPre)
    (hwrap : a.wrapStart settings = b.wrapStart settings)
    (hstarts : ∀ continuation start,
      a.context.StartsLine settings.typography continuation start →
        b.context.StartsLine settings.typography continuation start) :
    (b.kind settings).Describes settings line := by
  unfold kind at h ⊢
  rw [hpre, hwrap] at h
  split at h
  · rename_i hpre'
    rw [if_pos hpre']
    trivial
  · rename_i hpre'
    rw [if_neg hpre']
    rcases h with hfits | ⟨start, word, hstart, hline, hword⟩
    · exact .inl hfits
    · exact .inr ⟨start, word, hstarts _ _ hstart, hline, hword⟩

/-! ## (2) Lines that are added -/

/-- Whether a page holds certain lines and then lines of a kind. -/
def Adds (settings : Settings) (kind : LineKind) (lines : List Line) (flow : Flow) : Prop :=
  ∃ new, flow.page.lines = lines ++ new ∧ ∀ line ∈ new, kind.Describes settings line

/-- A state adds no line to those of its own page. -/
theorem adds_refl (kind : LineKind) (flow : Flow) : Adds settings kind flow.page.lines flow :=
  ⟨[], (List.append_nil _).symm, fun _ h => absurd h List.not_mem_nil⟩

/-- More lines of the kind may follow. -/
theorem Adds.trans {kind : LineKind} {lines : List Line} (h : Adds settings kind lines a)
    (hb : Adds settings kind a.page.lines b) : Adds settings kind lines b := by
  obtain ⟨new, hnew, hkind⟩ := h
  obtain ⟨new', hnew', hkind'⟩ := hb
  refine ⟨new ++ new', ?_, fun line hline => ?_⟩
  · rw [hnew', hnew, List.append_assoc]
  · rcases List.mem_append.1 hline with hline | hline
    · exact hkind line hline
    · exact hkind' line hline

/-- Blank lines are of every kind that lines in blocks are of. -/
theorem adds_blanks {lines blanks : List Line} (flow' : Flow)
    (hlines : flow.page.lines = lines ++ blanks) (hblanks : ∀ line ∈ blanks, line = []) :
    Adds settings (flow'.kind settings) lines flow := by
  refine ⟨blanks, hlines, fun line hline => ?_⟩
  rw [hblanks line hline]
  exact describes_nil flow'

/-- Ending a line puts it on the page, or a blank line at most. -/
theorem exists_newLine_lines (flow : Flow) : ∃ new,
    flow.newLine.page.lines = flow.page.lines ++ new ∧
      ∀ line ∈ new, line = [] ∨ flow.current ≠ [] ∧ line = flow.current := by
  by_cases hnil : flow.current = []
  · obtain ⟨n, hlines, -⟩ := exists_newLine_blanks hnil
    exact ⟨_, hlines, fun line hline => .inl (List.eq_of_mem_replicate hline)⟩
  · rw [newLine_of_begun hnil]
    exact ⟨[flow.current], rfl, fun line hline => .inr ⟨hnil, List.mem_singleton.1 hline⟩⟩

/-- The end of a line adds a line of the kind of the state. -/
theorem Fitted.adds_newLine (h : flow.Fitted settings) :
    Adds settings (flow.kind settings) flow.page.lines flow.newLine := by
  obtain ⟨new, hnew, hlines⟩ := exists_newLine_lines flow
  refine ⟨new, hnew, fun line hline => ?_⟩
  rcases hlines line hline with rfl | ⟨-, rfl⟩
  · exact describes_nil flow
  · exact h.describes_current

/-- In preformatted text, lines are added of any look. -/
theorem adds_of_inPre (hpre : flow.context.inPre = true) {lines : List Line}
    (h : lines <+: b.page.lines) : Adds settings (flow.kind settings) lines b := by
  obtain ⟨new, hnew⟩ := h
  refine ⟨new, hnew.symm, fun line _ => ?_⟩
  rw [kind, if_pos hpre]
  trivial

/-- What a change does to a page: lines are added at its end, anchors are recorded on the line that
is being filled, and no line is spread. -/
structure Grows (a b : Flow) : Prop where
  lines : a.page.lines <+: b.page.lines
  anchors : ∀ anchor ∈ b.page.anchors, anchor ∈ a.page.anchors ∨ anchor.2 = a.lineIndex
  columnMaps : b.page.columnMaps = a.page.columnMaps

/-- An anchor is recorded on the line that is being filled. -/
theorem grows_recordAnchor (flow : Flow) (attributes : List Attribute) :
    Grows flow (flow.recordAnchor attributes) := by
  unfold recordAnchor
  split
  · exact ⟨List.prefix_refl _, fun _ => .inl, rfl⟩
  · split
    · exact ⟨List.prefix_refl _, fun _ => .inl, rfl⟩
    · refine ⟨List.prefix_refl _, fun anchor hanchor => ?_, rfl⟩
      refine (List.mem_append.1 hanchor).imp id fun hnew => ?_
      rw [List.mem_singleton.1 hnew]

/-- **Pages grow** at their ends. -/
theorem Change.grows (h : Change settings a b) : Grows a b := by
  cases h with
  | quiet => exact ⟨List.prefix_refl _, fun _ => .inl, rfl⟩
  | anchor attributes => exact grows_recordAnchor a attributes
  | heading => exact ⟨List.prefix_refl _, fun _ => .inl, rfl⟩
  | headingLine => exact ⟨List.prefix_refl _, fun _ => .inl, rfl⟩
  | pendingMark => exact ⟨List.prefix_refl _, fun _ => .inl, rfl⟩
  | commit => exact ⟨List.prefix_append _ _, fun _ => .inl, rfl⟩
  | blank => exact ⟨List.prefix_append _ _, fun _ => .inl, rfl⟩
  | reset => exact ⟨List.prefix_refl _, fun _ => .inl, rfl⟩
  | block => exact ⟨List.prefix_refl _, fun _ => .inl, rfl⟩
  | leavePre => exact ⟨List.prefix_refl _, fun _ => .inl, rfl⟩
  | item =>
    obtain ⟨spans, heq⟩ := exists_atItem settings a
    rw [heq]
    exact ⟨List.prefix_refl _, fun _ => .inl, rfl⟩
  | word hpre word hne hw glue =>
    -- A word may end the line before it and the one it moves off: two lines at most are added.
    unfold addWord beginLine makeRoom fitWord
    dsimp only
    split_ifs
    all_goals first
      | exact ⟨List.prefix_refl _, fun _ => .inl, rfl⟩
      | exact ⟨List.prefix_append _ _, fun _ => .inl, rfl⟩
  | codeEnd =>
    rw [fitWord_eq]
    split
    · exact ⟨List.prefix_refl _, fun _ => .inl, rfl⟩
    · exact ⟨List.prefix_append _ _, fun _ => .inl, rfl⟩
  | piece hpre piece hne =>
    rw [addPiece_of_ne_nil hne]
    exact ⟨List.prefix_refl _, fun _ => .inl, rfl⟩
  | commitPre =>
    unfold Flow.commitPre
    dsimp only
    split_ifs
    all_goals exact ⟨List.prefix_append _ _, fun _ => .inl, rfl⟩
  | image => exact ⟨List.prefix_append _ _, fun _ => .inl, rfl⟩
  | rule => exact ⟨List.prefix_append _ _, fun _ => .inl, rfl⟩
  | tableLine => exact ⟨List.prefix_append _ _, fun _ => .inl, rfl⟩

/-- The lines of the page stay at its start when the state changes. -/
theorem Changes.lines_grow (h : Changes settings a b) : a.page.lines <+: b.page.lines := by
  induction h with
  | refl => exact List.prefix_refl _
  | tail _ hb ih => exact ih.trans hb.grows.lines

/-! ## (3) What a token does -/

/-- What a token does after it ended the line before, in a state `mid`: it puts the lines `apart` on
the page and then lines of the kind of `mid`, and the line it begins is of that kind, too. -/
structure FilledFrom (settings : Settings) (mid : Flow) (apart : List Line) (flow : Flow) :
    Prop where
  fitted : flow.Fitted settings
  added : Adds settings (mid.kind settings) (mid.page.lines ++ apart) flow
  kept : flow.current ≠ [] → ∀ line, (flow.kind settings).Describes settings line →
    (mid.kind settings).Describes settings line

/-- A state is filled from itself by no lines. -/
theorem Fitted.filledFrom (h : flow.Fitted settings) : FilledFrom settings flow [] flow :=
  ⟨h, by simpa using adds_refl (flow.kind settings) flow, fun _ _ => id⟩

/-- Where no line is begun, nothing is to be known of its kind. -/
theorem filledFrom_of_nil (hfitted : flow.Fitted settings) (hnil : flow.current = [])
    (hadded : Adds settings (mid.kind settings) (mid.page.lines ++ apart) flow) :
    FilledFrom settings mid apart flow :=
  ⟨hfitted, hadded, fun hne => absurd hnil hne⟩

/-- A token that only ends the line before. -/
theorem filledFrom_newLine (h : flow.Fitted settings) (hfitted : b.Fitted settings)
    (hlines : b.page.lines = flow.newLine.page.lines) (hnil : b.current = []) :
    FilledFrom settings flow [] b := by
  refine filledFrom_of_nil hfitted hnil ?_
  rw [List.append_nil, Adds, hlines]
  exact h.adds_newLine

/-- **Housekeeping** begins no line. -/
theorem FilledFrom.housekeeping (h : FilledFrom settings mid apart a) (hab : Housekeeping a b) :
    FilledFrom settings mid apart b := by
  have hfitted : b.Fitted settings := h.fitted.changes hab.changes
  cases hab with
  | quiet =>
    refine ⟨hfitted, h.added, fun hne line hline => h.kept hne line ?_⟩
    exact describes_of_kind hline rfl rfl fun _ _ => id
  | anchor attributes =>
    obtain ⟨anchors, hanchors⟩ := exists_recordAnchor a attributes
    rw [hanchors] at hfitted ⊢
    exact ⟨hfitted, h.added, h.kept⟩
  | newLine =>
    refine filledFrom_of_nil hfitted (newLine_current a) (h.added.trans ?_)
    obtain ⟨new, hnew, hlines⟩ := exists_newLine_lines a
    refine ⟨new, hnew, fun line hline => ?_⟩
    rcases hlines line hline with rfl | ⟨hne, rfl⟩
    · exact describes_nil mid
    · exact h.kept hne _ h.fitted.describes_current
  | blanks hnil hl n =>
    refine filledFrom_of_nil hfitted hnil (h.added.trans (adds_blanks mid rfl ?_))
    exact fun line hline => List.eq_of_mem_replicate hline
  | block hnil => exact filledFrom_of_nil hfitted hnil h.added

/-- What a tag does beside its action adds no lines. -/
theorem FilledFrom.housekeepings (h : FilledFrom settings mid apart a)
    (hab : Housekeepings a b) : FilledFrom settings mid apart b := by
  induction hab with
  | refl => exact h
  | tail _ hbc ih => exact ih.housekeeping hbc

/-- Lines that are filled with words. -/
theorem filledFrom_of_fills (hpre : a.context.inPre = false)
    (hlines : a.page.lines = mid.page.lines)
    (hkind : ∀ line, (a.kind settings).Describes settings line →
      (mid.kind settings).Describes settings line)
    (h : Fills settings a.context (a.wrapStart settings) a.page.lines b) :
    FilledFrom settings mid [] b := by
  have hdescribes : ∀ {line}, a.context.FitsIn settings (a.wrapStart settings) line →
      (mid.kind settings).Describes settings line := by
    intro line hfits
    refine hkind line ?_
    rw [kind, if_neg (by simp [hpre])]
    exact hfits
  obtain ⟨new, hnew, hfits⟩ := h.added
  refine ⟨h.fitted, ⟨new, ?_, fun line hline => hdescribes (hfits line hline)⟩, ?_⟩
  · rw [hnew, hlines, List.append_nil]
  · intro _ line hline
    refine hdescribes ?_
    have hb : b.kind settings = .flow a.context (a.wrapStart settings) := by
      rw [kind, h.inside, h.wrap, if_neg (by simp [hpre])]
    rwa [hb] at hline

/-- In preformatted text all lines are of one kind. -/
theorem filledFrom_of_inPre (hpre : flow.context.inPre = true) (h : flow.Fitted settings)
    (hchanges : Changes settings flow b) : FilledFrom settings flow [] b := by
  refine ⟨h.changes hchanges, ?_, ?_⟩
  · rw [List.append_nil]
    exact adds_of_inPre hpre hchanges.lines_grow
  · intro _ line _
    rw [kind, if_pos hpre]
    trivial

/-- Lines of their own come after the line before is ended, and only blank lines come after them. -/
theorem filledFrom_of_apart {blanks : List Line} (h : flow.Fitted settings)
    (hitem : flow.opensItem token = false) (hfitted : b.Fitted settings) (hnil : b.current = [])
    (hlines : b.page.lines = flow.newLine.page.lines ++ apart ++ blanks)
    (hblanks : ∀ line ∈ blanks, line = []) :
    FilledFrom settings (flow.ended settings token apart) apart b := by
  refine filledFrom_of_nil hfitted hnil ?_
  rw [ended, if_neg (by simp [hitem])]
  by_cases hapart : apart = []
  · subst hapart
    rw [List.isEmpty_nil, if_pos rfl, List.append_nil]
    refine h.adds_newLine.trans (adds_blanks flow ?_ hblanks)
    rw [hlines, List.append_nil]
  · rw [if_neg (by simpa using hapart)]
    exact adds_blanks _ hlines hblanks

/-- Without lines apart, a token that opens no item leaves the line before as it is. -/
theorem ended_of_nil (hitem : flow.opensItem token = false) :
    flow.ended settings token [] = flow := by
  simp [ended, hitem]

/-- Collecting text for the heading leaves the kind of lines alone. -/
theorem describes_collectHeading (flow : Flow) (s : Text)
    (h : ((flow.collectHeading s).kind settings).Describes settings line) :
    (flow.kind settings).Describes settings line := by
  unfold collectHeading at h
  split at h
  · exact describes_of_kind h rfl rfl fun _ _ => id
  · exact h

/-- Text adds lines of the kind that the state has before it. -/
theorem filledFrom_feedText (h : flow.Fitted settings) (s : Text) :
    FilledFrom settings flow [] (flow.feedText settings s) := by
  have hheading : (flow.collectHeading s).Fitted settings :=
    h.changes (collectHeading_changes flow s)
  -- Collecting text for a heading puts nothing on a line.
  have hcollect : (flow.collectHeading s).page = flow.page ∧
      (flow.collectHeading s).current = flow.current := by
    unfold collectHeading
    split <;> exact ⟨rfl, rfl⟩
  have hcollected : FilledFrom settings flow [] (flow.collectHeading s) := by
    refine ⟨hheading, ?_, fun _ _ => describes_collectHeading flow s⟩
    rw [List.append_nil, Adds, hcollect.1]
    exact adds_refl _ flow
  rw [feedText_eq]
  split
  · exact h.filledFrom
  · split
    -- In a table the text goes to the draft.
    · split
      · exact hcollected.housekeeping (updateTable_housekeeping _ _ rfl)
      · exact hcollected
    -- Elsewhere it goes to the lines, which are those of preformatted text or of words.
    · split
      · rename_i hpre
        exact filledFrom_of_inPre hpre h ((collectHeading_changes flow s).trans
          (addPre_changes _ (by simpa using hpre) s))
      · rename_i hpre
        have hpre' : (flow.collectHeading s).context.inPre = false := by simpa using hpre
        exact filledFrom_of_fills hpre' (by rw [hcollect.1])
          (fun _ => describes_collectHeading flow s) (fills_addText hheading hpre' s)

/-- The end of an empty line adds nothing but blank lines. -/
theorem newLine_blanks_lines (flow : Flow) (hnil : flow.current = []) : ∃ blanks,
    flow.newLine.page.lines = flow.page.lines ++ blanks ∧ ∀ line ∈ blanks, line = [] := by
  obtain ⟨n, hlines, -⟩ := exists_newLine_blanks hnil
  exact ⟨_, hlines, fun line hline => List.eq_of_mem_replicate hline⟩

/-- The lines of a table are put on the page as they are, behind no line that is being filled. -/
theorem addTableLines_page (lines : List Line) (flow : Flow) :
    (flow.addTableLines lines).page.lines = flow.page.lines ++ lines ∧
      (flow.addTableLines lines).current = flow.current := by
  unfold addTableLines
  induction lines generalizing flow with
  | nil => exact ⟨(List.append_nil _).symm, rfl⟩
  | cons line lines ih =>
    obtain ⟨hlines, hcurrent⟩ := ih ((flow.exempt flow.lineIndex).addLine line)
    refine ⟨?_, hcurrent⟩
    rw [List.foldl_cons, hlines]
    show flow.page.lines ++ [line] ++ lines = flow.page.lines ++ (line :: lines)
    rw [List.append_assoc, List.singleton_append]

/-- The lines of a table come after the line before is ended. -/
theorem exists_flushTable_lines (settings : Settings) (flow : Flow) :
    (flow.flushTable settings).current = [] ∧ ∃ blanks,
      (flow.flushTable settings).page.lines =
        flow.newLine.page.lines ++ flow.tableLines settings ++ blanks ∧
      ∀ line ∈ blanks, line = [] := by
  have hstart : (newLine { flow with nestedTables := 0 }).page = flow.newLine.page ∧
      (newLine { flow with nestedTables := 0 }).context = flow.context := by
    unfold newLine endsInText
    dsimp only
    split_ifs <;> exact ⟨rfl, rfl⟩
  have hindent : ((newLine { flow with nestedTables := 0 }).updateTable fun _ => {}).indent
      settings = flow.indent settings := by
    show (newLine { flow with nestedTables := 0 }).context.indent settings.typography = _
    rw [hstart.2]
    rfl
  obtain ⟨hlines, hcurrent⟩ := addTableLines_page (flow.tableLines settings)
    ((newLine { flow with nestedTables := 0 }).updateTable fun _ => {})
  unfold flushTable
  dsimp only
  rw [hindent]
  refine ⟨newLine_current _, ?_⟩
  obtain ⟨blanks, hblanks, hall⟩ := newLine_blanks_lines _ (hcurrent.trans (newLine_current _))
  refine ⟨blanks, hblanks.trans ?_, hall⟩
  rw [hlines]
  show (newLine { flow with nestedTables := 0 }).page.lines ++ _ ++ blanks = _
  rw [hstart.1]

/-- An image puts its own lines on the page and leaves the kind of the lines as it is. -/
theorem filledFrom_addImage (h : flow.Fitted settings) (name : Text)
    (attributes : List Attribute) :
    FilledFrom settings
      (flow.ended settings (.empty name attributes) (flow.imageLines settings attributes))
      (flow.imageLines settings attributes) (flow.addImage settings attributes) := by
  have hfitted : (flow.addImage settings attributes).Fitted settings :=
    h.changes (addImage_changes flow attributes)
  unfold imageLines addImage at *
  cases hsource : Attribute.nonempty? attributes "src".toList with
  | none =>
    rw [ended_of_nil rfl]
    exact h.filledFrom
  | some source =>
    rw [hsource] at hfitted
    obtain ⟨blanks, hblanks, hall⟩ := newLine_blanks_lines (flow.newLine.atImage settings source
      (Text.squeeze ((Attribute.find? attributes "alt".toList).getD []))) rfl
    refine filledFrom_of_apart h rfl hfitted (newLine_current _) (hblanks.trans ?_) hall
    have hindent : flow.newLine.indent settings = flow.indent settings := by
      rw [indent, newLine_context, indent]
    show flow.newLine.page.lines ++ [flow.newLine.indent settings ++ _] ++ blanks = _
    rw [hindent]

/-- A rule puts its own line on the page and leaves the kind of the lines as it is. -/
theorem filledFrom_addRule (h : flow.Fitted settings) (name : Text)
    (attributes : List Attribute) :
    FilledFrom settings (flow.ended settings (.empty name attributes) (flow.ruleLines settings))
      (flow.ruleLines settings) (flow.addRule settings) := by
  have hfitted : (flow.addRule settings).Fitted settings := h.changes (addRule_changes flow)
  have hindent : flow.newLine.indent settings = flow.indent settings := by
    rw [indent, newLine_context, indent]
  unfold ruleLines addRule at *
  dsimp only at *
  rw [hindent] at hfitted ⊢
  split at hfitted
  · rename_i hwidth
    rw [if_pos hwidth, if_pos hwidth]
    obtain ⟨blanks, hblanks, hall⟩ := newLine_blanks_lines (flow.newLine.commitBlock
      (flow.indent settings ++ List.replicate
        (min maxRuleWidth (settings.maxWidth - Text.width (flow.indent settings))).toNat '─')
      Group.rule) rfl
    exact filledFrom_of_apart h rfl hfitted (newLine_current _) hblanks hall
  · rename_i hwidth
    rw [if_neg hwidth, if_neg hwidth]
    obtain ⟨blanks, hblanks, hall⟩ := newLine_blanks_lines _ (newLine_current flow)
    refine filledFrom_of_apart h rfl hfitted (newLine_current _) (hblanks.trans ?_) hall
    rw [List.append_nil]

/-- **Actions** put lines on the page that look like their kinds. -/
theorem Action.filledFrom (haction : Action settings flow token apart acted)
    (h : flow.Fitted settings) :
    FilledFrom settings (flow.ended settings token apart) apart acted := by
  cases haction with
  | none token hitem =>
    rw [ended_of_nil hitem]
    exact h.filledFrom
  | text s =>
    rw [ended_of_nil rfl]
    exact filledFrom_feedText h s
  | item name attributes hitem =>
    -- An item ends the line before, and that is the state its own line is filled from.
    rw [ended, if_pos hitem]
    exact (h.changes (startItem_changes flow)).filledFrom
  | openPre name attributes hrole =>
    rw [ended_of_nil (opensItem_of_ne flow _ (by simp [hrole]))]
    exact filledFrom_newLine h (h.changes (openBlock_changes flow .pre)) rfl (newLine_current flow)
  | openHeading name attributes level hrole =>
    rw [ended_of_nil (opensItem_of_ne flow _ (by simp [hrole]))]
    exact filledFrom_newLine h (h.changes (openBlock_changes flow (.heading level))) rfl
      (newLine_current flow)
  | openTable name attributes hrole =>
    rw [ended_of_nil (opensItem_of_ne flow _ (by simp [hrole]))]
    have hfitted := h.changes (openTable_changes flow)
    -- A table within a table is counted and does nothing to the lines.
    unfold Flow.openTable at hfitted ⊢
    split at hfitted
    · rename_i hin
      rw [if_pos hin]
      exact h.filledFrom.housekeeping (.quiet flow _ _ _ _ _ _ _ _ _ (.inl rfl) id)
    · rename_i hin
      rw [if_neg hin]
      exact filledFrom_newLine h hfitted rfl (newLine_current flow)
  | closeHeading name =>
    rw [ended_of_nil rfl]
    exact filledFrom_newLine h (h.changes (closeHeading_changes flow)) rfl (newLine_current flow)
  | closePre name hpre =>
    rw [ended_of_nil rfl]
    exact filledFrom_of_inPre hpre h (closePre_changes flow)
  | codeEnd name hw codeDepth =>
    rw [ended_of_nil rfl]
    -- The element is counted as closed before its mark is put down.
    have hquiet : Housekeeping flow { flow with codeDepth } :=
      .quiet flow _ _ _ _ _ _ _ _ _ (.inl rfl) id
    have hfitted : ({ flow with codeDepth } : Flow).Fitted settings := h.changes hquiet.changes
    exact filledFrom_of_fills (h.begun.word hw).1 rfl
      (fun _ hline => describes_of_kind hline rfl rfl fun _ _ => id) (fills_codeEnd hfitted hw)
  | closeTable name hin =>
    obtain ⟨hnil, blanks, hlines, hblanks⟩ := exists_flushTable_lines settings flow
    exact filledFrom_of_apart h rfl (h.changes (flushTable_changes flow)) hnil hlines hblanks
  | preBreak name attributes hpre =>
    rw [ended_of_nil rfl]
    exact filledFrom_of_inPre hpre h (addPre_changes flow hpre _)
  | image name attributes => exact filledFrom_addImage h name attributes
  | rule name attributes => exact filledFrom_addRule h name attributes

/-! ## (4) Pages -/

/-- Lines of one kind. -/
theorem forall₂_replicate {kind : LineKind} {lines : List Line}
    (h : ∀ line ∈ lines, kind.Describes settings line) :
    List.Forall₂ (LineKind.Describes settings) (List.replicate lines.length kind) lines := by
  induction lines with
  | nil => exact .nil
  | cons line lines ih =>
    exact .cons (h line List.mem_cons_self) (ih fun l hl => h l (List.mem_cons_of_mem _ hl))

/-- The kinds of the lines between two states are those that are put on the page. -/
theorem forall₂_kindsBetween {kinds : List LineKind}
    (h : List.Forall₂ (LineKind.Describes settings) kinds flow.page.lines)
    (hmid : Adds settings (flow.kind settings) flow.page.lines mid)
    (hlast : Adds settings (mid.kind settings) (mid.page.lines ++ apart) flow') :
    List.Forall₂ (LineKind.Describes settings)
      (kinds ++ kindsBetween settings flow mid apart flow') flow'.page.lines := by
  obtain ⟨before, hbefore, hbefores⟩ := hmid
  obtain ⟨after, hafter, hafters⟩ := hlast
  have hlines : flow'.page.lines = flow.page.lines ++ (before ++ (apart ++ after)) := by
    simp only [hafter, hbefore, List.append_assoc]
  have hcount : mid.lineIndex - flow.lineIndex = before.length := by
    simp [lineIndex, hbefore]
  have hcount' : flow'.lineIndex - (mid.lineIndex + apart.length) = after.length := by
    simp only [lineIndex, hafter, List.length_append]
    omega
  have hapart : List.Forall₂ (LineKind.Describes settings) (apart.map .apart) apart := by
    rw [List.forall₂_map_left_iff, List.forall₂_same]
    exact fun line _ => rfl
  rw [hlines, kindsBetween, hcount, hcount']
  exact List.rel_append h (List.rel_append (forall₂_replicate hbefores)
    (List.rel_append hapart (forall₂_replicate hafters)))

/-- The line before a token is ended. -/
theorem Fitted.adds_ended (h : flow.Fitted settings) (token : Token) (apart : List Line) :
    Adds settings (flow.kind settings) flow.page.lines (flow.ended settings token apart) := by
  unfold ended
  split
  · obtain ⟨spans, heq⟩ := exists_atItem settings flow.newLine
    rw [startItem_eq, heq]
    exact h.adds_newLine
  · split
    · exact adds_refl _ flow
    · exact h.adds_newLine

/-- **A token** puts lines on the page that look like their kinds. -/
theorem forall₂_tokenKinds {kinds : List LineKind} (hfitted : flow.Fitted settings)
    (h : List.Forall₂ (LineKind.Describes settings) kinds flow.page.lines) (token : Token) :
    List.Forall₂ (LineKind.Describes settings) (kinds ++ flow.tokenKinds settings token)
      (flow.feed settings token).page.lines := by
  obtain ⟨acted, haction, hkeep⟩ := feed_turn settings flow token
  exact forall₂_kindsBetween h (hfitted.adds_ended token _)
    ((haction.filledFrom hfitted).housekeepings hkeep).added

/-- The end of a line of preformatted text leaves the open blocks as they are. -/
theorem flushPre_context (settings : Settings) (flow : Flow) :
    (flow.flushPre settings).context = flow.context := by
  unfold flushPre endPreLine
  split_ifs
  · exact commitPre_context flow
  · rfl
  · rfl

/-- A table that is still open at the end of a chapter comes last. -/
theorem flush_of_inTable (hin : flow.context.table.inTable = true) :
    flow.flush settings = (flow.flushPre settings).flushTable settings := by
  have hflush : flow.flush settings =
      let done := if (flow.flushPre settings).context.table.inTable then
        (flow.flushPre settings).flushTable settings else flow.flushPre settings
      if done.current.isEmpty then done else done.commit := by
    unfold flush flushPre endPreLine
    cases hpre : flow.context.inPre <;> cases hopen : flow.preLineOpen <;> simp
  have hnil := (exists_flushTable_lines settings (flow.flushPre settings)).1
  rw [hflush, flushPre_context, hin]
  simp only [if_true, hnil, List.isEmpty_nil]

/-- The lines before a table that is still open at the end of a chapter. -/
theorem Fitted.adds_flushPre (h : flow.Fitted settings) :
    Adds settings (flow.kind settings) flow.page.lines (flow.flushPre settings).newLine := by
  by_cases hpre : flow.context.inPre = true
  · have hchanges : Changes settings flow (flow.flushPre settings).newLine := by
      refine Relation.ReflTransGen.trans ?_ (newLine_changes _)
      unfold flushPre endPreLine
      split_ifs
      · exact (Change.commitPre flow hpre).chain
      · exact Relation.ReflTransGen.refl
    exact adds_of_inPre hpre hchanges.lines_grow
  · rw [flushPre, if_neg hpre]
    exact h.adds_newLine

/-- Outside tables, the line that is being filled is the last one. -/
theorem Fitted.adds_flush (h : flow.Fitted settings) (hin : flow.context.table.inTable = false) :
    Adds settings (flow.kind settings) flow.page.lines (flow.flush settings) := by
  by_cases hpre : flow.context.inPre = true
  · exact adds_of_inPre hpre (flush_changes flow).lines_grow
  · rw [flush_eq hin, if_neg hpre]
    dsimp only
    split
    · exact adds_refl _ flow
    · exact ⟨[flow.current], rfl, fun line hline =>
        List.mem_singleton.1 hline ▸ h.describes_current⟩

/-- **The end of a chapter** puts lines on the page that look like their kinds. -/
theorem forall₂_flushKinds {kinds : List LineKind} (hfitted : flow.Fitted settings)
    (h : List.Forall₂ (LineKind.Describes settings) kinds flow.page.lines) :
    List.Forall₂ (LineKind.Describes settings) (kinds ++ flow.flushKinds settings)
      (flow.flush settings).page.lines := by
  unfold flushKinds flushEnded
  by_cases hin : flow.context.table.inTable = true
  · rw [if_pos hin, if_pos hin]
    refine forall₂_kindsBetween h hfitted.adds_flushPre ?_
    have hcontext := flushPre_context settings flow
    have htable : (flow.flushPre settings).tableLines settings = flow.tableLines settings := by
      unfold tableLines indent
      rw [hcontext]
    obtain ⟨hnil, blanks, hlines, hblanks⟩ :=
      exists_flushTable_lines settings (flow.flushPre settings)
    rw [flush_of_inTable hin]
    rw [htable] at hlines
    exact adds_blanks _ hlines hblanks
  · rw [if_neg hin, if_neg hin]
    refine forall₂_kindsBetween h (adds_refl _ flow) ?_
    rw [List.append_nil]
    exact hfitted.adds_flush (by simpa using hin)

/-- **Every line of a page looks like its kind.** -/
theorem run_lines_fit (settings : Settings) (tokens : List Token) :
    List.Forall₂ (LineKind.Describes settings)
      ((lineKinds settings {} tokens).take (run settings tokens).page.lines.length)
      (run settings tokens).page.lines := by
  -- The induction is on the tokens that are left, with the lines and kinds so far.
  have hrun : ∀ (flow : Flow) (kinds : List LineKind), flow.Fitted settings →
      List.Forall₂ (LineKind.Describes settings) kinds flow.page.lines →
      List.Forall₂ (LineKind.Describes settings) (kinds ++ lineKinds settings flow tokens)
        ((flow.feedAll settings tokens).flush settings).page.lines := by
    induction tokens with
    | nil => exact fun flow kinds hfitted h => forall₂_flushKinds hfitted h
    | cons token tokens ih =>
      intro flow kinds hfitted h
      rw [lineKinds, ← List.append_assoc]
      exact ih _ _ (hfitted.changes (feed_changes flow token)) (forall₂_tokenKinds hfitted h token)
  have hstart : ({} : Flow).Fitted settings := fitted_feedAll settings []
  -- The blank lines at the end are dropped, and their kinds with them.
  obtain ⟨blanks, hblanks, -⟩ :=
    exists_dropTrailingBlanks_append ((feedAll {} settings tokens).flush settings).page.lines
  have hall := hrun {} [] hstart .nil
  rw [List.nil_append, hblanks] at hall
  exact List.forall₂_take_append _ _ _ hall

end Flow

end ChapterLayout
