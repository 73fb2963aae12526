import ChapterLayout.Block.Context

/-! # The numbers of list items

A list counts its items in its own level of the context, but the number of an item can be read off
the history alone: it is one more than the number of markers that were asked for while the same list
was innermost. Lists are told apart by the place of their opening in the history, and all histories
here have their latest operation first.

* **`BlockContext.openLists`** — the lists of a history that are still open;
* **`BlockContext.numbered`** — how many markers were asked for while a list was innermost;
* **`BlockContext.lists_performAll`** — the levels of the context are the open lists with these
  numbers;
* **`BlockContext.lists_leave`** — a list that is opened and left again changes no level;
* **`BlockContext.nextMarker_performAll`** — the markers of all histories. -/

namespace ChapterLayout

/-- What is done to the lists of a context. -/
inductive ListOp where
  | enter (ordered : Bool)
  | leave
  | next
  deriving DecidableEq, Repr

namespace BlockContext

variable {past inner : List ListOp} {place : Nat} {ordered : Bool}

/-- The context after an operation. -/
def perform (context : BlockContext) : ListOp → BlockContext
  | .enter ordered => context.enterList ordered
  | .leave => context.leaveList
  | .next => context.nextMarker.2

/-- The context after a history. -/
def performAll (context : BlockContext) : List ListOp → BlockContext
  | [] => context
  | op :: past => (context.performAll past).perform op

/-! ## (1) Lists in a history -/

/-- The lists that are still open when `left` further ones are left, each with the number of
operations before it and whether it is ordered, the innermost one first. -/
def openLists (left : Nat) : List ListOp → List (Nat × Bool)
  | [] => []
  | .enter ordered :: past => match left with
    | 0 => (past.length, ordered) :: openLists 0 past
    | left + 1 => openLists left past
  | .leave :: past => openLists (left + 1) past
  | .next :: past => openLists left past

/-- The innermost list after a history, if one is open. -/
def innermost? (past : List ListOp) : Option (Nat × Bool) := (openLists 0 past).head?

/-- The number of markers that were asked for while the list opened at `place` was innermost. -/
def numbered (place : Nat) : List ListOp → Nat
  | [] => 0
  | .next :: past =>
    if (innermost? past).any (·.1 == place) then numbered place past + 1 else numbered place past
  | _ :: past => numbered place past

/-- Leaving lists takes the innermost ones away. -/
theorem openLists_eq_drop (left : Nat) (past : List ListOp) :
    openLists left past = (openLists 0 past).drop left := by
  induction past generalizing left with
  | nil => simp [openLists]
  | cons op past ih =>
    cases op with
    | enter ordered =>
      cases left with
      | zero => rfl
      | succ left => exact ih left
    | leave =>
      show openLists (left + 1) past = (openLists 1 past).drop left
      rw [ih (left + 1), ih 1, List.drop_drop, Nat.add_comm]
    | next => exact ih left

/-- An open list was opened within the history. -/
theorem lt_length_of_mem_openLists {left : Nat} (h : (place, ordered) ∈ openLists left past) :
    place < past.length := by
  induction past generalizing left with
  | nil => exact nomatch h
  | cons op past ih =>
    cases op with
    | enter other =>
      cases left with
      | zero =>
        rcases List.mem_cons.1 h with hhere | hbefore
        · exact (Prod.mk.inj hhere).1 ▸ Nat.lt_succ_self past.length
        · exact Nat.lt_succ_of_lt (ih hbefore)
      | succ left => exact Nat.lt_succ_of_lt (ih h)
    | leave => exact Nat.lt_succ_of_lt (ih h)
    | next => exact Nat.lt_succ_of_lt (ih h)

/-- Inner lists were opened later. -/
theorem pairwise_openLists (left : Nat) (past : List ListOp) :
    (openLists left past).Pairwise (·.1 > ·.1) := by
  induction past generalizing left with
  | nil => exact List.Pairwise.nil
  | cons op past ih =>
    cases op with
    | enter ordered =>
      cases left with
      | zero => exact List.pairwise_cons.2 ⟨fun _ => lt_length_of_mem_openLists, ih 0⟩
      | succ left => exact ih left
    | leave => exact ih (left + 1)
    | next => exact ih left

/-- No marker was asked for in a list that is opened later. -/
theorem numbered_eq_zero (h : past.length ≤ place) : numbered place past = 0 := by
  induction past with
  | nil => rfl
  | cons op past ih =>
    have hlength : past.length ≤ place := Nat.le_of_succ_le h
    cases op with
    | enter ordered => exact ih hlength
    | leave => exact ih hlength
    | next =>
      rw [numbered, if_neg, ih hlength]
      rw [innermost?, Option.any_eq_true]
      rintro ⟨⟨other, ordered⟩, hinnermost, hother⟩
      have := lt_length_of_mem_openLists (List.mem_of_head? hinnermost)
      simp only [beq_iff_eq] at hother
      omega

/-! ## (2) The levels of the context -/

/-- The level of an open list. -/
def levelOf (past : List ListOp) (list : Nat × Bool) : ListLevel :=
  ⟨list.2, if list.2 then numbered list.1 past else 0⟩

/-- A marker is counted in the innermost list and in no other one. -/
theorem map_levelOf_next {innermost : Nat × Bool} {outer : List (Nat × Bool)}
    (h : openLists 0 past = innermost :: outer) :
    (openLists 0 (.next :: past)).map (levelOf (.next :: past)) =
      ⟨innermost.2, if innermost.2 then numbered innermost.1 past + 1 else 0⟩ ::
        outer.map (levelOf past) := by
  have hinnermost : innermost? past = some innermost := by rw [innermost?, h, List.head?_cons]
  have hcons : openLists 0 (.next :: past) = innermost :: outer := h
  rw [hcons, List.map_cons]
  congr 1
  · simp [levelOf, numbered, hinnermost]
  · refine List.map_congr_left fun list hlist => ?_
    have hlater := (List.pairwise_cons.1 (h ▸ pairwise_openLists 0 past)).1 list hlist
    have hother : (innermost.1 == list.1) = false := beq_eq_false_iff_ne.2 (Nat.ne_of_gt hlater)
    simp [levelOf, numbered, hinnermost, hother]

/-- **The levels of the context** are the open lists, and an ordered one has counted the markers
that were asked for while it was innermost. -/
theorem lists_performAll {context : BlockContext} (hcontext : context.lists = [])
    (past : List ListOp) :
    (context.performAll past).lists = (openLists 0 past).map (levelOf past) := by
  -- The induction is on the history, the latest operation first: each one does to the levels what
  -- it does to the lists that are open.
  induction past with
  | nil => exact hcontext
  | cons op past ih =>
    cases op with
    | enter ordered =>
      show ({ ordered } : ListLevel) :: (context.performAll past).lists = _
      rw [ih]
      simp [openLists, levelOf, numbered, numbered_eq_zero]
    | leave =>
      show (context.performAll past).lists.tail = (openLists 1 past).map (levelOf past)
      rw [ih, ← List.map_tail, openLists_eq_drop 1, List.drop_one]
    | next =>
      show (context.performAll past).nextMarker.2.lists = _
      cases hopen : openLists 0 past with
      | nil =>
        have hnone : (context.performAll past).lists = [] := by rw [ih, hopen, List.map_nil]
        have hnext : openLists 0 (.next :: past) = [] := hopen
        rw [nextMarker, hnone, hnext]
        exact hnone
      -- The innermost list counts one item more, if its items are counted.
      | cons innermost outer =>
        obtain ⟨place, ordered⟩ := innermost
        have hcons : (context.performAll past).lists =
            levelOf past (place, ordered) :: outer.map (levelOf past) := by
          rw [ih, hopen, List.map_cons]
        rw [map_levelOf_next hopen, nextMarker, hcons]
        cases ordered with
        | true => rfl
        | false => exact hcons

/-! ## (3) Lists in between -/

/-- A list that is still open has all lists around it still open, and further ones inside. -/
theorem exists_openLists_append {left : Nat} {kind : Bool}
    (h : (past.length, kind) ∈ openLists left (inner ++ .enter ordered :: past)) :
    ∃ front, openLists left (inner ++ .enter ordered :: past) =
      front ++ (past.length, ordered) :: openLists 0 past ∧
        ∀ list ∈ front, past.length < list.1 := by
  -- The operations behind the entry are taken one by one: as long as the list is open, none of them
  -- closes it.
  induction inner generalizing left with
  | nil =>
    cases left with
    | zero => exact ⟨[], rfl, fun _ hlist => nomatch hlist⟩
    | succ left =>
      have hbefore : (past.length, kind) ∈ openLists left past := h
      exact absurd (lt_length_of_mem_openLists hbefore) (Nat.lt_irrefl _)
  | cons op inner ih =>
    cases op with
    | enter other =>
      cases left with
      | zero =>
        -- The entry is told apart from later ones by its place in the history.
        have hlonger : past.length < (inner ++ .enter ordered :: past).length := by simp; omega
        rcases List.mem_cons.1 h with hhere | hbefore
        · exact absurd (Prod.mk.inj hhere).1 (Nat.ne_of_lt hlonger)
        · obtain ⟨front, hfront, hlater⟩ := ih hbefore
          exact ⟨_ :: front, congrArg (_ :: ·) hfront, List.forall_mem_cons.2 ⟨hlonger, hlater⟩⟩
      | succ left => exact ih h
    | leave => exact ih h
    | next => exact ih h

/-- While a list is open, no marker is counted in the lists around it. -/
theorem numbered_append {left : Nat} {kind : Bool}
    (h : (past.length, kind) ∈ openLists left (inner ++ .enter ordered :: past))
    (hplace : place < past.length) :
    numbered place (inner ++ .enter ordered :: past) = numbered place past := by
  -- Only a marker of the list itself is counted, and while a later list is open none is.
  induction inner generalizing left with
  | nil => rfl
  | cons op inner ih =>
    cases op with
    | enter other =>
      cases left with
      | zero =>
        rcases List.mem_cons.1 h with hhere | hbefore
        · have := (Prod.mk.inj hhere).1
          simp at this
          omega
        · exact ih hbefore
      | succ left => exact ih h
    | leave => exact ih h
    | next =>
      have hopen : (past.length, kind) ∈ openLists 0 (inner ++ .enter ordered :: past) :=
        List.mem_of_mem_drop (openLists_eq_drop left _ ▸ h)
      -- The list that the marker belongs to comes later in the history.
      obtain ⟨front, hfront, hlater⟩ := exists_openLists_append hopen
      rw [List.cons_append, numbered, if_neg, ih h]
      rw [innermost?, hfront]
      cases front with
      | nil => simpa using Nat.ne_of_gt hplace
      | cons list front =>
        have := hlater list (List.mem_cons_self ..)
        simp
        omega

/-- **A list in between**: when a list that was opened is left again, all levels are what they were
before it was opened. -/
theorem lists_leave {context : BlockContext} (hcontext : context.lists = [])
    (h : innermost? (inner ++ .enter ordered :: past) = some (past.length, ordered)) :
    (context.performAll (.leave :: (inner ++ .enter ordered :: past))).lists =
      (context.performAll past).lists := by
  have hmem := List.mem_of_head? h
  obtain ⟨front, hfront, hlater⟩ := exists_openLists_append hmem
  have hnil : front = [] := by
    cases front with
    | nil => rfl
    | cons list front =>
      rw [innermost?, hfront, List.cons_append, List.head?_cons, Option.some.injEq] at h
      exact absurd (hlater list (List.mem_cons_self ..)) (by rw [h]; exact Nat.lt_irrefl _)
  have hopen : openLists 0 (.leave :: (inner ++ .enter ordered :: past)) = openLists 0 past := by
    show openLists 1 (inner ++ .enter ordered :: past) = _
    rw [openLists_eq_drop, hfront, hnil]
    rfl
  rw [lists_performAll hcontext, lists_performAll hcontext, hopen]
  refine List.map_congr_left fun list hlist => ?_
  have hnumbered : numbered list.1 (.leave :: (inner ++ .enter ordered :: past)) =
      numbered list.1 past := numbered_append hmem (lt_length_of_mem_openLists hlist)
  rw [levelOf, levelOf, hnumbered]

/-! ## (4) Markers -/

/-- The marker depends on the levels only. -/
theorem nextMarker_congr {a b : BlockContext} (h : a.lists = b.lists) :
    a.nextMarker.1 = b.nextMarker.1 := by
  unfold nextMarker
  rw [h]
  cases b.lists with
  | nil => rfl
  | cons level outer => dsimp only; split <;> rfl

/-- **The markers of list items**, after every sequence of openings, leavings and markers: nothing
outside lists, the bullet in an unordered list, and in an ordered one the number that is one more
than the number of markers asked for while this list was innermost. A list that is opened and left
again in between does not change the next marker. -/
theorem nextMarker_performAll {context : BlockContext} (hcontext : context.lists = [])
    (past : List ListOp) :
    (context.performAll past).nextMarker.1 =
        (match innermost? past with
        | none => []
        | some (_, false) => bullet
        | some (place, true) => Text.ofNat (numbered place past + 1) ++ ['.', ' ']) ∧
      ∀ ordered inner, innermost? (inner ++ .enter ordered :: past) = some (past.length, ordered) →
        (context.performAll (.leave :: (inner ++ .enter ordered :: past))).nextMarker.1 =
          (context.performAll past).nextMarker.1 := by
  refine ⟨?_, fun ordered inner h => nextMarker_congr (lists_leave hcontext h)⟩
  have hlists := lists_performAll hcontext past
  rw [innermost?]
  cases hopen : openLists 0 past with
  | nil =>
    rw [hopen, List.map_nil] at hlists
    rw [nextMarker, hlists]
    rfl
  | cons innermost outer =>
    obtain ⟨place, ordered⟩ := innermost
    rw [hopen, List.map_cons] at hlists
    rw [nextMarker, hlists]
    cases ordered <;> rfl

/-- An unordered list between two items of an ordered one. -/
theorem nextMarker_performAll_between :
    (performAll {} [.next, .enter true]).nextMarker.1 = "2. ".toList ∧
      innermost? ([.next] ++ .enter false :: [.next, .enter true]) = some (2, false) ∧
      (performAll {} (.leave :: ([.next] ++ .enter false :: [.next, .enter true]))).nextMarker.1 =
        "2. ".toList := by
  obtain ⟨hmarker, hbetween⟩ := @nextMarker_performAll {} rfl [.next, .enter true]
  have hinnermost :
      innermost? ([.next] ++ .enter false :: [.next, .enter true]) = some (2, false) :=
    rfl
  exact ⟨hmarker, hinnermost, (hbetween false [.next] hinnermost).trans hmarker⟩

end BlockContext

end ChapterLayout
