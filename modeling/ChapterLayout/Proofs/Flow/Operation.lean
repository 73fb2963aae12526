import Mathlib.Tactic.SplitIfs
import ChapterLayout.Flow.Run

/-! # The operations of tokens

Every token is laid out by a few operations, one after the other. Which ones depends on the token
alone, and the state only decides whether a tag is hidden. So what is known of every operation is
known of every token, and whatever a tag does is looked up in one place:

* **`Flow.Operation`** — the operations, and `Flow.perform` what each of them does to a state;
* **`TagRole.opening`**, **`TagRole.closing`** — the operations of the tags of a role;
* **`Token.operations`** — the operations of a token;
* **`Flow.feed_eq_performAll`** — laying out a token that is not hidden is performing its
  operations;
* **`Flow.feed_related`** — a relation that every operation of a token keeps, the token keeps. -/

namespace ChapterLayout

/-! ## (1) Blocks -/

namespace TagRole

/-- The context in the block that an opening tag opens. -/
def enter : TagRole → BlockContext → BlockContext
  | .head, context => { context with inHead := true }
  | .title, context => { context with inTitle := true }
  | .list ordered, context => context.enterList ordered
  | .item, context => context.nextMarker.2
  | .quote, context => context.enterQuote
  | .pre, context => { context with inPre := true }
  | .description, context => { context with inDescription := true }
  | .heading level, context => { context with headingLevel := level, headingText := [] }
  | _, context => context

/-- The context after the block that a closing tag closes. -/
def leave : TagRole → BlockContext → BlockContext
  | .head, context => { context with inHead := false }
  | .title, context =>
    if context.inTitle then { context with inTitle := false, titleSerial := none } else context
  | .list _, context => context.leaveList
  | .quote, context => context.leaveQuote
  | .pre, context => { context with inPre := false }
  | .description, context => { context with inDescription := false }
  | .heading _, context => { context with headingLevel := 0, headingText := [] }
  | _, context => context

end TagRole

namespace Flow

/-! ## (2) Operations -/

/-- An operation that tokens are laid out with. -/
inductive Operation where
  | text (s : Text)
  | lineBreak
  | newLine
  | paragraphBreak
  /-- A block that needs no more than a context of its own is opened between two lines. -/
  | enter (role : TagRole)
  /-- Such a block is closed between two lines. -/
  | leave (role : TagRole)
  | item
  /-- The head of the document begins or ends. -/
  | head (begins : Bool)
  /-- Raw content begins or ends. -/
  | raw (begins : Bool)
  | openPre
  | closePre
  | openHeading (level : Nat)
  | closeHeading
  | openCode
  | closeCode
  /-- The class of an element may open a title. -/
  | openTitle (attributes : List Attribute)
  /-- The title ends, if one is open. -/
  | closeTitle
  | openTable
  | closeTable
  | tablePart (name : Text) (closing : Bool)
  | image (attributes : List Attribute)
  | rule
  | anchor (attributes : List Attribute)
  | push (name : Text) (attributes : List Attribute)
  | pop (name : Text)
  deriving DecidableEq, Repr

/-- The state after an operation. -/
def perform (flow : Flow) (settings : Settings) : Operation → Flow
  | .text s => flow.feedText settings s
  | .lineBreak => flow.breakLine settings
  | .newLine => flow.newLine
  | .paragraphBreak => flow.paragraphBreak settings
  | .enter role => flow.newLine.updateContext role.enter
  | .leave role => flow.newLine.updateContext role.leave
  | .item => flow.startItem settings
  | .head begins => flow.updateContext ({ · with inHead := begins })
  | .raw begins => flow.updateContext fun c =>
      { c with rawDepth := if begins then c.rawDepth + 1 else c.rawDepth - 1 }
  | .openPre => flow.openBlock settings .pre
  | .closePre => flow.closePre settings
  | .openHeading level => flow.openBlock settings (.heading level)
  | .closeHeading => flow.closeHeading
  | .openCode => flow.openBlock settings .code
  | .closeCode => flow.closeBlock settings .code
  | .openTitle attributes =>
    if !flow.context.inTitle && opensTitle settings attributes then flow.openTitle else flow
  | .closeTitle => flow.closeBlock settings .title
  | .openTable => flow.openTable
  | .closeTable => flow.closeTable settings
  | .tablePart name closing => flow.changeTablePart name closing
  | .image attributes => flow.addImage settings attributes
  | .rule => flow.addRule settings
  | .anchor attributes => flow.recordAnchor attributes
  | .push name attributes => flow.pushElement settings name attributes
  | .pop name => flow.popElement name

/-- The state after operations one after the other. -/
def performAll (flow : Flow) (settings : Settings) (operations : List Operation) : Flow :=
  operations.foldl (fun flow operation => flow.perform settings operation) flow

variable {settings : Settings}

/-- No operations leave the state as it is. -/
@[simp] theorem performAll_nil (flow : Flow) : flow.performAll settings [] = flow := rfl

/-- Operations are performed one after the other. -/
@[simp] theorem performAll_cons (flow : Flow) (operation : Operation)
    (operations : List Operation) :
    flow.performAll settings (operation :: operations) =
      (flow.perform settings operation).performAll settings operations := rfl

/-- Operations one behind the other are performed one after the other. -/
@[simp] theorem performAll_append (flow : Flow) (operations more : List Operation) :
    flow.performAll settings (operations ++ more) =
      (flow.performAll settings operations).performAll settings more := List.foldl_append

/-- **Operations one after the other.** A relation that each of them keeps, all of them keep. -/
theorem performAll_related {R : Flow → Flow → Prop} (refl : ∀ a, R a a)
    (trans : ∀ {a b c}, R a b → R b c → R a c) {operations : List Operation}
    (h : ∀ operation ∈ operations, ∀ flow : Flow, R flow (flow.perform settings operation))
    (flow : Flow) : R flow (flow.performAll settings operations) := by
  induction operations generalizing flow with
  | nil => exact refl flow
  | cons operation operations ih =>
    obtain ⟨hfirst, hrest⟩ := List.forall_mem_cons.1 h
    exact trans (hfirst flow) (ih hrest _)

end Flow

/-! ## (3) Tags -/

namespace TagRole

open Flow

/-- The operations that open the block of a role. -/
def opening : TagRole → List Operation
  | .head => [.head true]
  | .title => [.newLine, .enter .title]
  | .list ordered => [.enter (.list ordered)]
  | .item => [.item]
  | .quote => [.enter .quote]
  | .pre => [.openPre]
  | .code => [.openCode]
  | .description => [.enter .description]
  | .heading level => [.openHeading level]
  | .paragraph => [.newLine]
  | .block => [.newLine]
  | _ => []

/-- The operations that close the block of a role. -/
def closing : TagRole → List Operation
  | .head => [.head false]
  | .title => [.closeTitle]
  | .list ordered => [.leave (.list ordered)]
  | .item => [.newLine]
  | .quote => [.leave .quote]
  | .pre => [.closePre]
  | .code => [.closeCode]
  | .description => [.leave .description]
  | .heading _ => [.closeHeading]
  | .paragraph => [.paragraphBreak]
  | .block => [.newLine]
  | _ => []

end TagRole

namespace Flow

variable {settings : Settings}

/-- The operations of an element that is closed in its own tag, but for its anchor. -/
def emptyOperations (name : Text) (attributes : List Attribute) : List Operation :=
  if name == "br".toList then [.lineBreak]
  else if name == "img".toList then [.image attributes]
  else if name == "hr".toList then [.rule]
  else if TagRole.breaksLine name then [.newLine]
  else []

/-- A block is opened by the operations of its role. -/
theorem openBlock_eq_performAll (flow : Flow) (role : TagRole) :
    flow.openBlock settings role = flow.performAll settings role.opening := by
  cases role <;> rfl

/-- A block is closed by the operations of its role. -/
theorem closeBlock_eq_performAll (flow : Flow) (role : TagRole) :
    flow.closeBlock settings role = flow.performAll settings role.closing := by
  cases role <;> rfl

end Flow

open Flow in
/-- The operations of a token. -/
def Token.operations : Token → List Operation
  | .text s => [.text s]
  | .opening name attributes =>
    match TagRole.ofName name with
    | .raw => [.raw true]
    | .table => [.openTable, .anchor attributes]
    | .tablePart => [.tablePart name false, .anchor attributes]
    | role => role.opening ++ [.anchor attributes, .push name attributes, .openTitle attributes]
  | .closing name =>
    match TagRole.ofName name with
    | .raw => [.raw false]
    | .table => [.closeTable]
    | .tablePart => [.tablePart name true]
    | role => role.closing ++ [.pop name]
  | .empty name attributes => emptyOperations name attributes ++ [.anchor attributes]

namespace Flow

variable {settings : Settings}

/-! ## (4) Tokens -/

/-- Whether the head of the document hides a token. -/
def hidesToken (flow : Flow) : Token → Bool
  | .text _ => false
  | .opening name _ => flow.hides (TagRole.ofName name)
  | .closing name => flow.hides (TagRole.ofName name)
  | .empty _ _ => flow.context.inHead

/-- What an element that is closed in its own tag is laid out with. -/
theorem emptyTag_eq_performAll {flow : Flow} (hshown : flow.context.inHead = false) (name : Text)
    (attributes : List Attribute) :
    flow.emptyTag settings name attributes =
      flow.performAll settings (emptyOperations name attributes ++ [.anchor attributes]) := by
  rw [performAll_append, emptyTag, if_neg (by simp [hshown])]
  show _ = (flow.performAll settings (emptyOperations name attributes)).recordAnchor attributes
  unfold emptyOperations
  split_ifs <;> rfl

/-- **A token that is not hidden** is laid out by performing its operations. -/
theorem feed_eq_performAll (settings : Settings) (flow : Flow) (token : Token) :
    flow.feed settings token =
      if flow.hidesToken token then flow else flow.performAll settings token.operations := by
  cases token with
  | text s => rfl
  | opening name attributes =>
    show (if flow.hides (TagRole.ofName name) then flow else _) =
      if flow.hides (TagRole.ofName name) then flow else _
    split
    · rfl
    · cases hrole : TagRole.ofName name <;> simp only [Token.operations, hrole] <;> rfl
  | closing name =>
    show (if flow.hides (TagRole.ofName name) then flow else _) =
      if flow.hides (TagRole.ofName name) then flow else _
    split
    · rfl
    · cases hrole : TagRole.ofName name <;> simp only [Token.operations, hrole] <;> rfl
  | empty name attributes =>
    show flow.emptyTag settings name attributes = if flow.context.inHead then flow else _
    split
    · rename_i hhead
      rw [emptyTag, if_pos hhead]
    · rename_i hshown
      exact emptyTag_eq_performAll (by simpa using hshown) name attributes

/-- **Tokens.** A relation that every operation of a token keeps, the token keeps. -/
theorem feed_related {R : Flow → Flow → Prop} (refl : ∀ a, R a a)
    (trans : ∀ {a b c}, R a b → R b c → R a c) {token : Token}
    (h : ∀ operation ∈ token.operations, ∀ flow : Flow, R flow (flow.perform settings operation))
    (flow : Flow) : R flow (flow.feed settings token) := by
  rw [feed_eq_performAll]
  split
  · exact refl flow
  · exact performAll_related refl trans h flow

end Flow

end ChapterLayout
