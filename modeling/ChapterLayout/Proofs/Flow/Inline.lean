import ChapterLayout.Proofs.Flow.Feed

/-! # Inline markup

Tags of elements within a line only change the stack of open elements, the anchors and the notices:
`feed_tag`. The text between them is laid out as words: `feed_text`. Both hold wherever text goes to
the lines of the page, `Flow.TakesWords`, and keep this so. -/

namespace ChapterLayout

namespace Token

/-- The text of a token; tags have none. -/
def content : Token → Text
  | .text s => s
  | _ => []

/-- The text of tokens, joined. -/
def contents (tokens : List Token) : Text := tokens.flatMap content

/-- A tag has no text. -/
theorem content_eq_nil {token : Token} (h : ∀ s, token ≠ .text s) : token.content = [] := by
  cases token with
  | text s => exact absurd rfl (h s)
  | _ => rfl

/-- No tokens, no text. -/
@[simp] theorem contents_nil : contents [] = [] := rfl

/-- The text of a token comes before that of the tokens behind it. -/
@[simp] theorem contents_cons (token : Token) (tokens : List Token) :
    contents (token :: tokens) = token.content ++ contents tokens := rfl

/-- Whether an element of the given name stands within a line. -/
def IsInlineName (name : Text) : Prop := TagRole.ofName name = .inline ∧ name ≠ "img".toList

instance (name : Text) : Decidable (IsInlineName name) := inferInstanceAs (Decidable (_ ∧ _))

/-- Text, and tags of elements within a line none of whose classes opens a title. -/
def IsInline (settings : Settings) : Token → Prop
  | .text _ => True
  | .opening name attributes => IsInlineName name ∧ Flow.opensTitle settings attributes = false
  | .closing name => IsInlineName name
  | .empty name _ => IsInlineName name

instance (settings : Settings) (token : Token) : Decidable (token.IsInline settings) :=
  match token with
  | .text _ => inferInstanceAs (Decidable True)
  | .opening _ _ => inferInstanceAs (Decidable (_ ∧ _))
  | .closing name => inferInstanceAs (Decidable (IsInlineName name))
  | .empty name _ => inferInstanceAs (Decidable (IsInlineName name))

end Token

/-- The open elements after a tag. -/
def Stack.after (settings : Settings) (stack : Stack) : Token → Stack
  | .opening name attributes => stack.push name attributes settings.classStyles
  | .closing name => match stack.pop? name with
    | some (_, rest) => rest
    | none => stack
  | _ => stack

namespace Flow

/-- Text goes to the lines of the page, and nothing but words and block tags ends a line. -/
structure TakesWords (flow : Flow) : Prop where
  rawDepth : flow.context.rawDepth = 0
  inHead : flow.context.inHead = false
  inPre : flow.context.inPre = false
  inTable : flow.context.table.inTable = false
  titleSerial : flow.context.titleSerial = none

/-- The state with other open elements, anchors and notices. -/
def withElements (flow : Flow) (styles : Stack) (anchors : List (Text × Int))
    (notices : List Notice) : Flow :=
  { flow with styles, notices, page := { flow.page with anchors } }

variable {settings : Settings} {flow : Flow}

/-- A state that takes words hides no tag. -/
theorem TakesWords.hides (h : flow.TakesWords) (role : TagRole) : flow.hides role = false := by
  simp [Flow.hides, h.inHead]

/-- A state still takes words with other open elements, anchors and notices. -/
theorem TakesWords.withElements (h : flow.TakesWords) (styles : Stack)
    (anchors : List (Text × Int)) (notices : List Notice) :
    (flow.withElements styles anchors notices).TakesWords :=
  ⟨h.rawDepth, h.inHead, h.inPre, h.inTable, h.titleSerial⟩

/-- An opening tag within a line puts its element on the stack. -/
theorem openTag_inline (h : flow.TakesWords) {name : Text} {attributes : List Attribute}
    (hname : Token.IsInlineName name) (htitle : opensTitle settings attributes = false) :
    ∃ anchors notices, flow.openTag settings name attributes =
      flow.withElements (flow.styles.push name attributes settings.classStyles) anchors
        notices := by
  obtain ⟨anchors, hanchors⟩ := exists_recordAnchor flow attributes
  refine ⟨anchors, flow.notices ++
    (Frame.unmappedClasses attributes settings.classStyles).map .unmappedClass, ?_⟩
  have hblock : flow.openBlock settings TagRole.inline = flow := rfl
  simp only [openTag, h.hides, hname.1, hblock, hanchors, htitle, Bool.and_false,
    Bool.false_eq_true, if_false]
  rfl

/-- A closing tag within a line takes its element from the stack. -/
theorem closeTag_inline (h : flow.TakesWords) {name : Text} (hname : Token.IsInlineName name) :
    ∃ notices, flow.closeTag settings name =
      flow.withElements (flow.styles.after settings (.closing name)) flow.page.anchors notices := by
  have hblock : flow.closeBlock settings TagRole.inline = flow := rfl
  simp only [closeTag, h.hides, hname.1, hblock, Bool.false_eq_true, if_false, popElement,
    Stack.after]
  cases flow.styles.pop? name with
  | none => exact ⟨flow.notices ++ [.unmatchedClosing name], rfl⟩
  | some popped => exact ⟨flow.notices, by simp [h.titleSerial, withElements]⟩

/-- An element within a line that is closed in its own tag does nothing but set its anchor. -/
theorem emptyTag_phrase (hhead : flow.context.inHead = false) {name : Text}
    (hname : Token.IsInlineName name) (attributes : List Attribute) :
    flow.emptyTag settings name attributes = flow.recordAnchor attributes := by
  -- The elements that do something of their own play other roles.
  have hother : ∀ other : Text, TagRole.ofName other ≠ .inline → (name == other) = false := by
    intro other hrole
    rw [beq_eq_false_iff_ne]
    rintro rfl
    exact hrole hname.1
  have hbr : (name == "br".toList) = false := hother _ (by decide)
  have hhr : (name == "hr".toList) = false := hother _ (by decide)
  have himg : (name == "img".toList) = false := beq_eq_false_iff_ne.2 hname.2
  have hline : TagRole.breaksLine name = false := by simp [TagRole.breaksLine, hname.1]
  simp only [emptyTag, hhead, hbr, hhr, himg, hline, Bool.false_eq_true, if_false]

/-- An empty tag within a line leaves everything as it is but the anchors. -/
theorem emptyTag_inline (h : flow.TakesWords) {name : Text} {attributes : List Attribute}
    (hname : Token.IsInlineName name) :
    ∃ anchors, flow.emptyTag settings name attributes =
      flow.withElements flow.styles anchors flow.notices := by
  obtain ⟨anchors, hanchors⟩ := exists_recordAnchor flow attributes
  exact ⟨anchors, (emptyTag_phrase h.inHead hname attributes).trans hanchors⟩

/-- **Tags within a line.** They change the open elements, the anchors and the notices only. -/
theorem feed_tag (h : flow.TakesWords) {token : Token} (htoken : token.IsInline settings)
    (htag : ∀ s, token ≠ .text s) :
    ∃ anchors notices, flow.feed settings token =
      flow.withElements (flow.styles.after settings token) anchors notices := by
  cases token with
  | opening name attributes => exact openTag_inline h htoken.1 htoken.2
  | closing name =>
    obtain ⟨notices, hclose⟩ := closeTag_inline h htoken
    exact ⟨flow.page.anchors, notices, hclose⟩
  | empty name attributes =>
    obtain ⟨anchors, hempty⟩ := emptyTag_inline h htoken
    exact ⟨anchors, flow.notices, hempty⟩
  | text s => exact absurd rfl (htag s)

/-- **Text within a line** is laid out as words. -/
theorem feed_text (h : flow.TakesWords) (s : Text) :
    flow.feed settings (.text s) = (flow.collectHeading s).addText settings s := by
  show flow.feedText settings s = _
  rw [feedText_eq]
  simp [h.rawDepth, h.inHead, h.inTable, h.inPre]

/-- Collecting the text of a heading changes the text of the heading only. -/
theorem exists_collectHeading (flow : Flow) (s : Text) :
    ∃ headingText, flow.collectHeading s =
      { flow with context := { flow.context with headingText } } := by
  unfold collectHeading
  split
  · exact ⟨_, rfl⟩
  · exact ⟨flow.context.headingText, rfl⟩

/-- Text leaves the open blocks as they are. -/
@[simp] theorem addText_context (flow : Flow) (s : Text) :
    (flow.addText settings s).context = flow.context := by
  have hwords : ∀ (ws : List Text) (a : Flow), (a.addWords settings ws).context = a.context := by
    intro ws
    induction ws with
    | nil => exact fun _ => rfl
    | cons w ws ih =>
      intro a
      exact (ih _).trans (addWord_context a w false)
  unfold addText
  split
  · rfl
  · split
    · rfl
    · exact (hwords _ _).trans (addWord_context _ _ _)

/-- A state still takes words after text was collected for a heading. -/
theorem TakesWords.collectHeading (h : flow.TakesWords) (s : Text) :
    (flow.collectHeading s).TakesWords := by
  obtain ⟨headingText, hcollect⟩ := exists_collectHeading flow s
  rw [hcollect]
  exact ⟨h.rawDepth, h.inHead, h.inPre, h.inTable, h.titleSerial⟩

/-- The open blocks alone decide where text goes. -/
theorem TakesWords.of_context {next : Flow} (h : flow.TakesWords)
    (hcontext : next.context = flow.context) : next.TakesWords := by
  constructor
  all_goals rw [hcontext]
  · exact h.rawDepth
  · exact h.inHead
  · exact h.inPre
  · exact h.inTable
  · exact h.titleSerial

/-- A state still takes words after text was laid out. -/
theorem TakesWords.addText (h : flow.TakesWords) (s : Text) :
    (flow.addText settings s).TakesWords :=
  h.of_context (addText_context flow s)

/-- **Inline markup goes on.** After text or an inline tag, text still goes to the lines. -/
theorem TakesWords.feed (h : flow.TakesWords) {token : Token} (htoken : token.IsInline settings) :
    (flow.feed settings token).TakesWords := by
  by_cases htag : ∀ s, token ≠ .text s
  · obtain ⟨anchors, notices, hfeed⟩ := feed_tag h htoken htag
    rw [hfeed]
    exact h.withElements _ _ _
  · obtain ⟨s, rfl⟩ : ∃ s, token = .text s := by simpa using htag
    rw [feed_text h]
    exact (h.collectHeading s).addText s

end Flow

end ChapterLayout
