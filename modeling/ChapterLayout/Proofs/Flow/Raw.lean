import ChapterLayout.Proofs.Chapter
import ChapterLayout.Proofs.Flow.Inline
import ChapterLayout.Proofs.Markup.RawElement

/-! # Raw elements on the page

An open raw element is only counted, and text is dropped while one is open. In the head of a
document no raw element is counted, and text is dropped unless it belongs to the title. So there is
one place where the text of a raw element is laid out: within a title that stands in the head.

* **`Flow.feed_rawText`** — at every other place the text of a raw element is dropped;
* **`Flow.step?_rawText`** — and asks for no indentation;
* **`Flow.rawDepth_closed`** — after a raw element as many are open as before it, at every place;
* **`Flow.feedAll_rawElement`** — and all else is as it was, but for that one place. -/

namespace ChapterLayout

namespace TagRole

/-- The role of raw elements. -/
theorem ofName_of_mem_rawNames {name : Text} (hname : name ∈ Token.rawNames) :
    ofName name = .raw := by
  have hall : ∀ n ∈ Token.rawNames, ofName n = .raw := by decide
  exact hall name hname

end TagRole

namespace Flow

variable {settings : Settings} {flow : Flow} {name : Text} {attributes : List Attribute}

/-! ## (1) Tags of raw elements -/

/-- The state with one more raw element open. -/
def enterRaw (flow : Flow) : Flow :=
  flow.updateContext fun c => { c with rawDepth := c.rawDepth + 1 }

/-- The state with one raw element less open. -/
def leaveRaw (flow : Flow) : Flow :=
  flow.updateContext fun c => { c with rawDepth := c.rawDepth - 1 }

/-- Outside the head of a document an opening tag is counted. -/
theorem openTag_raw (hname : name ∈ Token.rawNames) (settings : Settings) (flow : Flow)
    (attributes : List Attribute) : flow.openTag settings name attributes =
      if flow.context.inHead then flow else flow.enterRaw := by
  cases hhead : flow.context.inHead <;>
    simp [openTag, hides, TagRole.ofName_of_mem_rawNames hname, hhead, enterRaw]

/-- Outside the head of a document a closing tag is counted. -/
theorem closeTag_raw (hname : name ∈ Token.rawNames) (settings : Settings) (flow : Flow) :
    flow.closeTag settings name = if flow.context.inHead then flow else flow.leaveRaw := by
  cases hhead : flow.context.inHead <;>
    simp [closeTag, hides, TagRole.ofName_of_mem_rawNames hname, hhead, leaveRaw]

/-! ## (2) Their text -/

/-- Whether text is dropped: a raw element is open, or the head outside its title. -/
def DropsText (flow : Flow) : Prop :=
  (flow.context.rawDepth ≠ 0 || (flow.context.inHead && !flow.context.inTitle)) = true

/-- Text that is dropped leaves the state as it is. -/
theorem feedText_of_dropsText (h : flow.DropsText) (s : Text) :
    flow.feedText settings s = flow := by
  rw [feedText_eq]
  exact if_pos h

/-- Text that is dropped asks for no indentation. -/
theorem tokenMakesIndent_of_dropsText (h : flow.DropsText) (s : Text) :
    flow.tokenMakesIndent (.text s) = false := by
  have hdrops : (flow.context.rawDepth ≠ 0 || (flow.context.inHead && !flow.context.inTitle) ||
      flow.context.table.inTable) = true := by
    rw [Bool.or_eq_true]
    exact .inl h
  rw [tokenMakesIndent, if_pos hdrops]

/-- Behind the opening tag of a raw element text is dropped, unless the tag stands within a title in
the head. -/
theorem dropsText_openTag (hname : name ∈ Token.rawNames)
    (hplace : (flow.context.inHead && flow.context.inTitle) = false) (settings : Settings)
    (attributes : List Attribute) : (flow.openTag settings name attributes).DropsText := by
  rw [openTag_raw hname]
  cases hhead : flow.context.inHead with
  | true =>
    rw [hhead, Bool.true_and] at hplace
    simp [DropsText, hhead, hplace]
  | false => simp [DropsText, enterRaw, updateContext]

/-- **The text of a raw element is dropped.** -/
theorem feed_rawText (hname : name ∈ Token.rawNames)
    (hplace : (flow.context.inHead && flow.context.inTitle) = false) (s : Text) :
    (flow.feed settings (.opening name attributes)).feed settings (.text s) =
      flow.feed settings (.opening name attributes) :=
  feedText_of_dropsText (dropsText_openTag hname hplace settings attributes) s

/-- **The text of a raw element asks for no indentation,** so it never fails to be laid out. -/
theorem step?_rawText (hname : name ∈ Token.rawNames)
    (hplace : (flow.context.inHead && flow.context.inTitle) = false) (s : Text) :
    (flow.feed settings (.opening name attributes)).step? settings (.token (.text s)) =
      .ok (flow.feed settings (.opening name attributes)) := by
  have hdrops := dropsText_openTag hname hplace settings attributes
  have hindent : (flow.feed settings (.opening name attributes)).makesIndent
      (.token (.text s)) = false := tokenMakesIndent_of_dropsText hdrops s
  rw [step?, hindent]
  exact congrArg Except.ok (feedText_of_dropsText hdrops s)

/-- The tag itself asks for no indentation. -/
theorem step?_rawOpening (hname : name ∈ Token.rawNames) (settings : Settings) (flow : Flow)
    (attributes : List Attribute) :
    flow.step? settings (.token (.opening name attributes)) =
      .ok (flow.feed settings (.opening name attributes)) := by
  have hindent : flow.makesIndent (.token (.opening name attributes)) = false := by
    simp [makesIndent, tokenMakesIndent, TagRole.ofName_of_mem_rawNames hname]
  rw [step?, hindent]
  rfl

/-- **The text of a raw element can be left out** of a chapter, unless the element stands within a
title in the head. -/
theorem run?_rawText {before : List Token} (hname : name ∈ Token.rawNames)
    (hplace : ((feedAll {} settings before).context.inHead &&
      (feedAll {} settings before).context.inTitle) = false)
    (attributes : List Attribute) (s : Text) (after : List Token) :
    run? settings (before ++ .opening name attributes :: .text s :: after) =
      run? settings (before ++ .opening name attributes :: after) := by
  -- The run is cut before the element, so that only the two tokens behind the cut matter.
  have hcut : ∀ tokens : List Token, run? settings (before ++ tokens) =
      steps? {} settings (before.map .token) >>= fun flow =>
        steps? flow settings (tokens.map .token ++ [.finish]) := by
    intro tokens
    rw [run?, List.map_append, List.append_assoc]
    exact List.foldlM_append
  rw [hcut, hcut]
  cases hsteps : steps? {} settings (before.map .token) with
  | error e => rfl
  | ok flow =>
    -- No step before the cut fails, so that the state there is the one reached without checks.
    have hflow : flow = feedAll {} settings before := by
      rw [eq_foldl_of_steps? hsteps, List.foldl_map]
      rfl
    have hcons : ∀ (a : Flow) (step : Step) (steps : List Step),
        steps? a settings (step :: steps) =
          a.step? settings step >>= fun b => steps? b settings steps :=
      fun a step steps => List.foldlM_cons
    show steps? flow settings (_ :: _ :: (after.map .token ++ [.finish])) =
      steps? flow settings (_ :: (after.map .token ++ [.finish]))
    rw [hflow, hcons, hcons, step?_rawOpening hname]
    show (feed _ settings _).step? settings _ >>= _ = steps? _ settings _
    rw [step?_rawText hname hplace]
    rfl

/-! ## (3) Whole raw elements -/

/-- Preformatted text leaves the open blocks as they are. -/
@[simp] theorem addPre_context (flow : Flow) (s : Text) :
    (flow.addPre settings s).context = flow.context := by
  have hpieces : ∀ (pieces : List Text) (a : Flow),
      (pieces.foldl (fun flow piece => (flow.commitPre settings).addPiece settings piece)
        a).context = a.context := by
    intro pieces
    induction pieces with
    | nil => exact fun _ => rfl
    | cons piece pieces ih =>
      intro a
      rw [List.foldl_cons, ih, addPiece_context, commitPre_context]
  unfold addPre
  dsimp only
  split
  · rfl
  · rw [hpieces, addPiece_context]

/-- Text changes the text of the heading and of the table only, among the open blocks. -/
theorem exists_feedText_context (flow : Flow) (s : Text) : ∃ headingText table,
    (flow.feedText settings s).context = { flow.context with headingText, table } := by
  obtain ⟨headingText, hcollect⟩ := exists_collectHeading flow s
  rw [feedText_eq, hcollect]
  split
  · exact ⟨_, _, rfl⟩
  · split
    · split
      · exact ⟨_, _, rfl⟩
      · exact ⟨_, _, rfl⟩
    · split
      · rw [addPre_context]
        exact ⟨_, _, rfl⟩
      · rw [addText_context]
        exact ⟨_, _, rfl⟩

/-- **After a raw element as many are open as before it,** wherever it stands. -/
theorem rawDepth_closed (hname : name ∈ Token.rawNames) (flow : Flow) (content : Text) :
    (flow.feedAll settings (.opening name attributes ::
      (Token.ofText content ++ [.closing name]))).context.rawDepth = flow.context.rawDepth := by
  -- Text may be collected for a heading or go to the draft of a table, and changes no other block.
  have htext : ∀ a : Flow, ∃ headingText table,
      (a.feedAll settings (Token.ofText content)).context =
        { a.context with headingText, table } := by
    intro a
    unfold Token.ofText
    split
    · exact ⟨_, _, rfl⟩
    · exact exists_feedText_context a content
  have hsplit : flow.feedAll settings (.opening name attributes ::
      (Token.ofText content ++ [.closing name])) =
      ((flow.openTag settings name attributes).feedAll settings (Token.ofText content)).closeTag
        settings name := by
    rw [feedAll, List.foldl_cons, List.foldl_append]
    rfl
  rw [hsplit, closeTag_raw hname, openTag_raw hname]
  -- In the head neither tag counts, and outside it both do.
  cases hhead : flow.context.inHead with
  | true =>
    obtain ⟨headingText, table, hcontext⟩ := htext flow
    have hhead' : (flow.feedAll settings (Token.ofText content)).context.inHead = true := by
      rw [hcontext]
      exact hhead
    rw [if_pos rfl, if_pos hhead', hcontext]
  | false =>
    obtain ⟨headingText, table, hcontext⟩ := htext flow.enterRaw
    have hhead' :
        ¬(flow.enterRaw.feedAll settings (Token.ofText content)).context.inHead = true := by
      rw [hcontext]
      exact Bool.eq_false_iff.1 hhead
    rw [if_neg Bool.false_ne_true, if_neg hhead', leaveRaw, updateContext, hcontext]
    rfl

/-- **A raw element leaves no trace** on the page, unless it stands within a title in the head. -/
theorem feedAll_rawElement (hname : name ∈ Token.rawNames)
    (hplace : (flow.context.inHead && flow.context.inTitle) = false) (content : Text) :
    flow.feedAll settings (.opening name attributes :: (Token.ofText content ++ [.closing name])) =
      flow := by
  have htext : (flow.openTag settings name attributes).feedAll settings (Token.ofText content) =
      flow.openTag settings name attributes := by
    unfold Token.ofText
    split
    · rfl
    · exact feed_rawText hname hplace content
  have hclose : (flow.openTag settings name attributes).closeTag settings name = flow := by
    rw [closeTag_raw hname, openTag_raw hname]
    cases hhead : flow.context.inHead with
    | true => rw [if_pos rfl, if_pos hhead]
    | false =>
      have hhead' : ¬flow.enterRaw.context.inHead = true := Bool.eq_false_iff.1 hhead
      rw [if_neg Bool.false_ne_true, if_neg hhead']
      rfl
  rw [feedAll, List.foldl_cons, List.foldl_append]
  show ((flow.openTag settings name attributes).feedAll settings (Token.ofText content)).closeTag
    settings name = flow
  rw [htext, hclose]

end Flow

end ChapterLayout
