import ChapterLayout.Proofs.Flow.Indentation

/-! # Where anchors come from

An anchor is recorded by the tag whose name it has, and the mark that the next word starts with is
set by a tag of inline code. Nothing else that tokens do touches them:

* **`anchor?_feed`**, **`anchor?_feedAll`** — tokens record no anchors but their own, so a name that
  no tag had before has no anchor yet;
* **`feed_pendingMark`** — a token leaves no mark, unless it is a tag of inline code. -/

namespace ChapterLayout

/-- The name of the anchor that a tag sets. -/
def Token.anchorName? : Token → Option Text
  | .opening _ attributes => Attribute.nonempty? attributes "id".toList
  | .empty _ attributes => Attribute.nonempty? attributes "id".toList
  | _ => none

namespace Flow

variable {settings : Settings} {flow a b : Flow} {id : Text} {attributes : List Attribute}
  {token : Token}

/-! ## (1) Anchors -/

/-- The same anchors are found. -/
theorem SameRecords.anchor?_eq (h : SameRecords a b) (id : Text) :
    b.page.anchor? id = a.page.anchor? id := by
  rw [Page.anchor?, h.anchors]
  rfl

/-- An anchor of another name is recorded at most. -/
theorem anchor?_recordAnchor_of_ne (flow : Flow)
    (hid : Attribute.nonempty? attributes "id".toList ≠ some id) :
    (flow.recordAnchor attributes).page.anchor? id = flow.page.anchor? id := by
  unfold recordAnchor
  split
  · rfl
  · rename_i other hother
    split
    · rfl
    · have hne : (id == other) = false := by
        rw [beq_eq_false_iff_ne]
        rintro rfl
        exact hid hother
      show List.lookup id (flow.page.anchors ++ [(other, (flow.lineIndex : Int))]) = _
      rw [List.lookup_append, List.lookup_cons, hne]
      exact Option.or_none

/-- Only an anchor touches the anchors. -/
theorem exists_anchor_of_touched {operation : Operation} (h : .anchors ∈ operation.touched) :
    ∃ attributes, operation = .anchor attributes := by
  cases operation with
  | anchor attributes => exact ⟨attributes, rfl⟩
  | enter role => cases role <;> simp [Operation.touched, TagRole.touched] at h
  | leave role => cases role <;> simp [Operation.touched, TagRole.touched] at h
  | _ => simp [Operation.touched] at h

/-- The anchor among the operations of a token is that of its tag. -/
theorem anchorName?_of_mem_operations (h : .anchor attributes ∈ token.operations) :
    token.anchorName? = Attribute.nonempty? attributes "id".toList := by
  cases token with
  | text s => simp [Token.operations] at h
  | opening name own =>
    have hown : attributes = own := by
      cases hrole : TagRole.ofName name <;> simp_all [Token.operations, TagRole.opening]
    rw [hown, Token.anchorName?]
  | closing name =>
    cases hrole : TagRole.ofName name <;> simp [Token.operations, hrole, TagRole.closing] at h
  | empty name own =>
    have hown : attributes = own := by
      revert h
      rw [Token.operations, emptyOperations]
      split_ifs <;> simp
    rw [hown, Token.anchorName?]

/-- **A token** records no anchor but its own. -/
theorem anchor?_feed (settings : Settings) (flow : Flow) (hname : token.anchorName? ≠ some id) :
    (flow.feed settings token).page.anchor? id = flow.page.anchor? id := by
  refine feed_related (R := fun a b => b.page.anchor? id = a.page.anchor? id) (fun _ => rfl)
    (fun hab hbc => hbc.trans hab) (fun operation hmem flow => ?_) flow
  by_cases htouched : .anchors ∈ operation.touched
  · obtain ⟨attributes, rfl⟩ := exists_anchor_of_touched htouched
    exact anchor?_recordAnchor_of_ne flow (anchorName?_of_mem_operations hmem ▸ hname)
  · have hsame : (flow.perform settings operation).page.anchors = flow.page.anchors :=
      perform_same .anchors settings flow htouched
    rw [Page.anchor?, hsame]
    rfl

/-- **A name that no tag has** gets no anchor. -/
theorem anchor?_feedAll (settings : Settings) (flow : Flow) {tokens : List Token}
    (hname : ∀ token ∈ tokens, token.anchorName? ≠ some id) :
    (flow.feedAll settings tokens).page.anchor? id = flow.page.anchor? id := by
  induction tokens generalizing flow with
  | nil => rfl
  | cons token tokens ih =>
    exact (ih (flow.feed settings token) fun other hother =>
      hname other (List.mem_cons_of_mem _ hother)).trans
        (anchor?_feed settings flow (hname token List.mem_cons_self))

/-! ## (2) Marks -/

/-- Whether no anchor of a name is recorded, and no mark waits for the next word. -/
structure Lacks (id : Text) (flow : Flow) : Prop where
  anchor : flow.page.anchor? id = none
  pendingMark : flow.pendingMark = []

/-- Nothing is recorded if the records stay the same. -/
theorem SameRecords.lacks (hab : SameRecords a b) (h : a.Lacks id) : b.Lacks id :=
  ⟨(hab.anchor?_eq id).trans h.anchor, hab.pendingMark h.pendingMark⟩

/-- Only an opening tag of inline code sets a mark. -/
theorem mark_not_touched (hrole : token.role ≠ .code) :
    ∀ operation ∈ token.operations, .mark ∉ operation.touched := by
  cases token with
  | text s => simp [Token.operations, Operation.touched]
  | opening name attributes =>
    cases h : TagRole.ofName name <;>
      simp_all [Token.role, Token.operations, TagRole.opening, Operation.touched, TagRole.touched]
  | closing name =>
    cases h : TagRole.ofName name <;>
      simp_all [Token.role, Token.operations, TagRole.closing, Operation.touched, TagRole.touched]
  | empty name attributes =>
    rw [Token.operations, emptyOperations]
    split_ifs <;> simp [Operation.touched]

/-- **A token** leaves no mark, unless it is a tag of inline code. -/
theorem feed_pendingMark (settings : Settings) (hrole : token.role ≠ .code)
    (h : flow.pendingMark = []) : (flow.feed settings token).pendingMark = [] :=
  feed_same .mark settings flow (mark_not_touched hrole) h

/-- **Behind tokens without inline code** no mark waits, and a name that no tag had has no anchor
yet. -/
theorem lacks_feedAll (settings : Settings) (tokens : List Token)
    (hname : ∀ token ∈ tokens, token.anchorName? ≠ some id)
    (hrole : ∀ token ∈ tokens, token.role ≠ .code) :
    (feedAll {} settings tokens).Lacks id := by
  have hmark : ∀ (more : List Token) (start : Flow), (∀ token ∈ more, token.role ≠ .code) →
      start.pendingMark = [] → (start.feedAll settings more).pendingMark = [] := by
    intro more
    induction more with
    | nil => exact fun _ _ h => h
    | cons token more ih =>
      intro start hmore h
      exact ih _ (fun other hother => hmore other (List.mem_cons_of_mem _ hother))
        (feed_pendingMark settings (hmore token List.mem_cons_self) h)
  exact ⟨anchor?_feedAll settings {} hname, hmark tokens {} hrole rfl⟩

end Flow

end ChapterLayout
