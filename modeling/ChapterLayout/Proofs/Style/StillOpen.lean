import Mathlib.Data.List.Induction
import ChapterLayout.Style.Stack

/-! # Which elements are still open

The stack is worked on step by step, but what it holds can be said of a whole history of openings
and closings at once. A closing tag finds its partner among the openings before it, the latest one
first; so an element is still open if every later closing of its name finds an opening of its own
that is later, too. `Stack.unmatched` counts the closings that do not, and `Stack.stillOpen` lists
the openings that are left.

* **`Stack.stillOpen_pop`** — closing a name takes away the last opening of that name that is left;
* **`Stack.serial_mem_stillOpen`** and **`Stack.pairwise_stillOpen`** — their serial numbers count
  all openings, so they increase;
* **`Stack.push_holding`**, **`Stack.pop?_holding`** — an operation does to both lists of the stack
  what it does to the openings that are left;
* **`Stack.performAll_eq`** — so the stack holds the elements that are still open, and their frames;
* **`Stack.performAll_refines`** — hence the frames in force are those of the elements still open,
  and closing a name takes away one element with its frames, or nothing. -/

namespace ChapterLayout

/-- What is done to the stack of open elements. -/
inductive StackOp where
  | push (name : Text) (attributes : List Attribute) (classStyles : ClassStyles)
  | pop (name : Text)
  deriving DecidableEq, Repr

/-- An opening tag with its serial number. -/
structure Opening where
  name : Text
  attributes : List Attribute
  classStyles : ClassStyles
  serial : Nat
  deriving DecidableEq, Repr

namespace Opening

/-- The frames the tag contributes. -/
def frames (opening : Opening) : List Frame :=
  Frame.forTag opening.name opening.attributes opening.serial opening.classStyles

/-- The element the tag opens. -/
def element (opening : Opening) : OpenElement := ⟨opening.name, opening.serial⟩

/-- The frames of a tag carry its serial number. -/
theorem serial_of_mem_frames {opening : Opening} {frame : Frame} (h : frame ∈ opening.frames) :
    frame.serial = opening.serial := by
  obtain ⟨mark, -, rfl⟩ := List.mem_map.1 h
  rfl

end Opening

namespace Stack

variable {name : Text} {ops : List StackOp} {left : List Opening} {before : Nat}

/-- The stack after an operation; closing a name that is not open leaves it as it is. -/
def perform (stack : Stack) : StackOp → Stack
  | .push name attributes classStyles => stack.push name attributes classStyles
  | .pop name => match stack.pop? name with
    | some (_, rest) => rest
    | none => stack

/-- The stack after operations. -/
def performAll (stack : Stack) (ops : List StackOp) : Stack := ops.foldl perform stack

/-- Closing a name takes the latest element of that name from the stack, if there is one. -/
theorem perform_pop_elements (stack : Stack) (name : Text) :
    (stack.perform (.pop name)).elements = stack.elements.eraseP (·.name == name) := by
  rw [perform, pop?]
  cases hfind : stack.elements.find? (·.name == name) with
  | some found => rfl
  | none => exact (List.eraseP_of_forall_not (List.find?_eq_none.1 hfind)).symm

/-- Closing a name opens no element. -/
theorem perform_pop_opened (stack : Stack) (name : Text) :
    (stack.perform (.pop name)).opened = stack.opened := by
  rw [perform, pop?]
  cases stack.elements.find? (·.name == name) with
  | some found => rfl
  | none => rfl

/-- Operations one after the other. -/
theorem performAll_append (stack : Stack) (ops more : List StackOp) :
    stack.performAll (ops ++ more) = (stack.performAll ops).performAll more :=
  List.foldl_append

/-! ## (1) Openings and their partners -/

/-- The number of closings of `name` that no opening among the operations before them is left
for. -/
def unmatched (name : Text) : List StackOp → Nat
  | [] => 0
  | .push other _ _ :: ops => if other = name then unmatched name ops - 1 else unmatched name ops
  | .pop other :: ops => if other = name then unmatched name ops + 1 else unmatched name ops

/-- The openings that no closing is the partner of, the oldest one first, if `before` others came
before the operations. -/
def stillOpen (before : Nat) : List StackOp → List Opening
  | [] => []
  | .push name attributes classStyles :: ops =>
    if unmatched name ops = 0 then
      ⟨name, attributes, classStyles, before + 1⟩ :: stillOpen (before + 1) ops
    else stillOpen (before + 1) ops
  | .pop _ :: ops => stillOpen before ops

/-- The number of openings. -/
def openings : List StackOp → Nat
  | [] => 0
  | .push .. :: ops => openings ops + 1
  | .pop _ :: ops => openings ops

/-- One more opening is counted. -/
theorem openings_push (name : Text) (attributes : List Attribute) (classStyles : ClassStyles)
    (ops : List StackOp) :
    openings (ops ++ [.push name attributes classStyles]) = openings ops + 1 := by
  induction ops with
  | nil => rfl
  | cons op ops ih => cases op <;> simp only [List.cons_append, openings, ih]

/-- One more closing is no opening. -/
theorem openings_pop (name : Text) (ops : List StackOp) :
    openings (ops ++ [.pop name]) = openings ops := by
  induction ops with
  | nil => rfl
  | cons op ops ih => cases op <;> simp only [List.cons_append, openings, ih]

/-- One more opening leaves as many closings without a partner. -/
theorem unmatched_append_push (name other : Text) (attributes : List Attribute)
    (classStyles : ClassStyles) (ops : List StackOp) :
    unmatched name (ops ++ [.push other attributes classStyles]) = unmatched name ops := by
  induction ops with
  | nil => simp [unmatched]
  | cons op ops ih => cases op <;> simp only [List.cons_append, unmatched, ih]

/-- A closing of another name leaves as many closings without a partner. -/
theorem unmatched_append_pop_of_ne {other : Text} (h : other ≠ name) (ops : List StackOp) :
    unmatched name (ops ++ [.pop other]) = unmatched name ops := by
  induction ops with
  | nil => simp [unmatched, h]
  | cons op ops ih => cases op <;> simp only [List.cons_append, unmatched, ih]

/-- **One more closing** is without a partner exactly if no opening of its name is left. -/
theorem unmatched_append_pop (name : Text) (before : Nat) (ops : List StackOp) :
    unmatched name (ops ++ [.pop name]) = unmatched name ops +
      if (stillOpen before ops).any (·.name == name) then 0 else 1 := by
  induction ops generalizing before with
  | nil => simp [unmatched, stillOpen]
  | cons op ops ih =>
    cases op with
    | pop other =>
      rw [List.cons_append, unmatched, unmatched, stillOpen, ih before]
      by_cases hname : other = name
      · rw [if_pos hname, if_pos hname, Nat.add_right_comm]
      · rw [if_neg hname, if_neg hname]
    | push other attributes classStyles =>
      simp only [List.cons_append, unmatched, stillOpen, ih (before + 1)]
      by_cases hname : other = name
      · subst hname
        -- The new opening is left exactly if all closings after it have partners of their own.
        by_cases hleft : unmatched other ops = 0
        · simp only [if_true, hleft, List.any_cons, beq_self_eq_true, Bool.true_or]
          split <;> rfl
        · simp only [if_true, if_neg hleft]
          omega
      · have hbeq : (other == name) = false := beq_eq_false_iff_ne.2 hname
        by_cases hleft : unmatched other ops = 0
        · simp only [if_neg hname, if_pos hleft, List.any_cons, hbeq, Bool.false_or]
        · simp only [if_neg hname, if_neg hleft]

/-! ## (2) The openings that are left, step by step -/

/-- One more opening is still open, behind those that are. -/
theorem stillOpen_push (attributes : List Attribute) (classStyles : ClassStyles) (name : Text)
    (before : Nat) (ops : List StackOp) :
    stillOpen before (ops ++ [.push name attributes classStyles]) =
      stillOpen before ops ++ [⟨name, attributes, classStyles, before + openings ops + 1⟩] := by
  induction ops generalizing before with
  | nil => simp [stillOpen, unmatched, openings]
  | cons op ops ih =>
    cases op with
    | pop other => exact ih before
    | push other otherAttributes otherStyles =>
      simp only [List.cons_append, stillOpen, unmatched_append_push, ih, openings]
      have hserial : before + 1 + openings ops + 1 = before + (openings ops + 1) + 1 := by omega
      split <;> simp [hserial]

/-- The openings without the last one called `name`. -/
def withoutLast (name : Text) : List Opening → List Opening
  | [] => []
  | opening :: left =>
    if left.any (·.name == name) then opening :: withoutLast name left
    else if opening.name = name then left
    else opening :: left

/-- Without an opening of a name none is closed by it. -/
theorem withoutLast_eq_self (h : left.any (·.name == name) = false) :
    withoutLast name left = left := by
  cases left with
  | nil => rfl
  | cons opening left =>
    simp only [List.any_cons, Bool.or_eq_false_iff, beq_eq_false_iff_ne] at h
    rw [withoutLast, if_neg (Bool.eq_false_iff.1 h.2), if_neg h.1]

/-- An opening of another name is not closed. -/
theorem withoutLast_cons_of_ne {opening : Opening} (h : opening.name ≠ name)
    (left : List Opening) :
    withoutLast name (opening :: left) = opening :: withoutLast name left := by
  rw [withoutLast]
  split
  · rfl
  · rename_i hany
    rw [withoutLast_eq_self (Bool.eq_false_iff.2 hany)]

/-- From the latest opening on, the first one of the name is taken away. -/
theorem reverse_withoutLast (name : Text) (left : List Opening) :
    (withoutLast name left).reverse = left.reverse.eraseP (·.name == name) := by
  induction left with
  | nil => rfl
  | cons opening left ih =>
    rw [withoutLast, List.reverse_cons]
    split
    · rename_i hany
      obtain ⟨last, hlast, hname⟩ := List.any_eq_true.1 hany
      rw [List.reverse_cons, ih]
      exact (List.eraseP_append_left (p := fun opening : Opening => opening.name == name) hname _
        (List.mem_reverse.2 hlast)).symm
    · rename_i hany
      have hnone : ∀ other ∈ left.reverse, ¬(other.name == name) = true :=
        fun other hother hname =>
          hany (List.any_eq_true.2 ⟨other, List.mem_reverse.1 hother, hname⟩)
      rw [List.eraseP_append_right _ hnone]
      split <;> rename_i hname <;> simp [hname]

/-- **Closing a name** takes away the last opening of that name that is left. -/
theorem stillOpen_pop (name : Text) (before : Nat) (ops : List StackOp) :
    stillOpen before (ops ++ [.pop name]) = withoutLast name (stillOpen before ops) := by
  induction ops generalizing before with
  | nil => rfl
  | cons op ops ih =>
    cases op with
    | pop other => exact ih before
    | push other attributes classStyles =>
      simp only [List.cons_append, stillOpen, ih]
      by_cases hname : other = name
      · subst hname
        rw [unmatched_append_pop other (before + 1)]
        by_cases hlater : (stillOpen (before + 1) ops).any (·.name == other)
        · -- A later opening of the name is left, and it is the one that is taken away.
          simp only [hlater, if_true, Nat.add_zero]
          split
          · rw [withoutLast, if_pos hlater]
          · rfl
        · rw [if_neg hlater, if_neg (Nat.succ_ne_zero _),
            withoutLast_eq_self (Bool.eq_false_iff.2 hlater)]
          split
          · rw [withoutLast, if_neg hlater, if_pos rfl]
          · rw [withoutLast_eq_self (Bool.eq_false_iff.2 hlater)]
      · rw [unmatched_append_pop_of_ne (Ne.symm hname)]
        split
        · rw [withoutLast_cons_of_ne hname]
        · rfl

/-! ## (3) Serial numbers -/

/-- Serial numbers count all openings, whether their elements are still open or not. -/
theorem serial_mem_stillOpen {opening : Opening} (h : opening ∈ stillOpen before ops) :
    before < opening.serial ∧ opening.serial ≤ before + openings ops := by
  induction ops generalizing before with
  | nil => exact nomatch h
  | cons op ops ih =>
    cases op with
    | pop other => exact ih h
    | push other attributes classStyles =>
      -- Later openings have greater numbers.
      have hlater : opening ∈ stillOpen (before + 1) ops →
          before < opening.serial ∧ opening.serial ≤ before + (openings ops + 1) := by
        intro hopening
        have := ih hopening
        omega
      rw [stillOpen] at h
      split at h
      · rcases List.mem_cons.1 h with rfl | hopening
        · exact ⟨Nat.lt_succ_self before, by simp only [openings]; omega⟩
        · exact hlater hopening
      · exact hlater h

/-- Later openings have larger serial numbers. -/
theorem pairwise_stillOpen (before : Nat) (ops : List StackOp) :
    (stillOpen before ops).Pairwise (·.serial < ·.serial) := by
  induction ops generalizing before with
  | nil => exact List.Pairwise.nil
  | cons op ops ih =>
    cases op with
    | pop other => exact ih before
    | push other attributes classStyles =>
      rw [stillOpen]
      split
      · exact List.pairwise_cons.2 ⟨fun _ hlater => (serial_mem_stillOpen hlater).1, ih _⟩
      · exact ih _

/-! ## (4) The stack holds the elements that are still open -/

/-- The last opening of a name, if there is one, with the openings before it and behind it. -/
theorem exists_last (left : List Opening) (name : Text) :
    (∀ opening ∈ left, opening.name ≠ name) ∨ ∃ older opening newer,
      left = older ++ opening :: newer ∧ opening.name = name ∧
        (∀ other ∈ newer, other.name ≠ name) ∧ withoutLast name left = older ++ newer := by
  cases hfind : left.reverse.find? (·.name == name) with
  | none =>
    refine .inl fun opening hopening => ?_
    simpa using List.find?_eq_none.1 hfind opening (List.mem_reverse.2 hopening)
  | some opening =>
    obtain ⟨hname, newer, older, hsplit, hnewer⟩ := List.find?_eq_some_iff_append.1 hfind
    have hleft : left = older.reverse ++ opening :: newer.reverse := by
      rw [← List.reverse_reverse left, hsplit]
      simp
    have hwithout : withoutLast name left = older.reverse ++ newer.reverse := by
      rw [← List.reverse_reverse (withoutLast _ _), reverse_withoutLast, hsplit,
        List.eraseP_append_right _ (by simpa using hnewer),
        List.eraseP_cons_of_pos (p := fun other : Opening => other.name == name) hname,
        List.reverse_append]
    exact .inr ⟨_, opening, _, hleft, by simpa using hname, by simpa using hnewer, hwithout⟩

/-- The stack whose elements were opened by the given openings, and are all that is left of `opened`
ones: its two lists hold the elements and the frames of the openings. -/
def holding (left : List Opening) (opened : Nat) : Stack where
  elements := (left.map Opening.element).reverse
  frames := left.flatMap Opening.frames
  opened := opened

/-- An opening tag adds to both lists. -/
theorem push_holding (left : List Opening) (opened : Nat) (name : Text)
    (attributes : List Attribute) (classStyles : ClassStyles) :
    (holding left opened).push name attributes classStyles =
      holding (left ++ [⟨name, attributes, classStyles, opened + 1⟩]) (opened + 1) := by
  simp [holding, push, nextSerial, nextFrames, Opening.element, Opening.frames]

/-- Closing a name that no element has finds none. -/
theorem pop?_holding_none (h : ∀ opening ∈ left, opening.name ≠ name) (opened : Nat) :
    (holding left opened).pop? name = none := by
  have hfind : (left.map Opening.element).reverse.find? (·.name == name) = none := by
    rw [List.find?_eq_none]
    intro e he
    obtain ⟨opening, hopening, rfl⟩ := List.mem_map.1 (List.mem_reverse.1 he)
    exact beq_iff_eq.not.2 (h opening hopening)
  rw [pop?, holding, hfind]
  rfl

/-- Without an element its frames are gone and all others are left. -/
theorem flatMap_frames_filter {older newer : List Opening} {opening : Opening}
    (h : (older ++ opening :: newer).Pairwise (·.serial < ·.serial)) :
    (older ++ newer).flatMap Opening.frames =
      ((older ++ opening :: newer).flatMap Opening.frames).filter (·.serial ≠ opening.serial) := by
  obtain ⟨-, hnewer, holder⟩ := List.pairwise_append.1 h
  have hkept : ∀ {others : List Opening}, (∀ other ∈ others, other.serial ≠ opening.serial) →
      (others.flatMap Opening.frames).filter (·.serial ≠ opening.serial) =
        others.flatMap Opening.frames := by
    intro others hothers
    refine List.filter_eq_self.2 fun frame hframe => ?_
    obtain ⟨other, hother, hmem⟩ := List.mem_flatMap.1 hframe
    rw [Opening.serial_of_mem_frames hmem]
    exact decide_eq_true (hothers other hother)
  have hgone : opening.frames.filter (·.serial ≠ opening.serial) = [] := by
    refine List.filter_eq_nil_iff.2 fun frame hframe => ?_
    simp [Opening.serial_of_mem_frames hframe]
  rw [List.flatMap_append, List.flatMap_append, List.flatMap_cons, List.filter_append,
    List.filter_append, hgone, List.nil_append,
    hkept fun other hother => Nat.ne_of_lt (holder other hother opening (List.mem_cons_self ..)),
    hkept fun other hother => Nat.ne_of_gt ((List.pairwise_cons.1 hnewer).1 other hother)]

/-- **Closing a name** removes its last opening from both lists. -/
theorem pop?_holding {older newer : List Opening} {opening : Opening} (hname : opening.name = name)
    (hnewer : ∀ other ∈ newer, other.name ≠ name)
    (hserial : (older ++ opening :: newer).Pairwise (·.serial < ·.serial)) (opened : Nat) :
    (holding (older ++ opening :: newer) opened).pop? name =
      some (opening.serial, holding (older ++ newer) opened) := by
  -- The latest element of the name is the opening, for the newer ones have other names.
  have hlists : ((older ++ opening :: newer).map Opening.element).reverse =
      (newer.map Opening.element).reverse ++
        opening.element :: (older.map Opening.element).reverse := by simp
  have hother : ∀ e ∈ (newer.map Opening.element).reverse, ¬(e.name == name) = true := by
    intro e he
    obtain ⟨other, hmem, rfl⟩ := List.mem_map.1 (List.mem_reverse.1 he)
    exact beq_iff_eq.not.2 (hnewer other hmem)
  have hthis : (opening.element.name == name) = true := beq_iff_eq.2 hname
  have hfind : ((older ++ opening :: newer).map Opening.element).reverse.find? (·.name == name) =
      some opening.element := by
    rw [hlists, List.find?_append, List.find?_eq_none.2 hother,
      List.find?_cons_of_pos (p := fun e : OpenElement => e.name == name) hthis]
    rfl
  have herase : ((older ++ opening :: newer).map Opening.element).reverse.eraseP (·.name == name) =
      ((older ++ newer).map Opening.element).reverse := by
    rw [hlists, List.eraseP_append_right _ hother,
      List.eraseP_cons_of_pos (p := fun e : OpenElement => e.name == name) hthis]
    simp
  -- No other element has its number, so that its frames are all that goes.
  have hframes := flatMap_frames_filter hserial
  rw [pop?, holding, hfind, herase, Option.map_some, leave, holding, hframes]
  rfl

/-- **The stack** after a history holds the elements that are still open: the latest one is the
first of its elements, and its frames are theirs in the order of the openings. -/
theorem performAll_eq (ops : List StackOp) :
    performAll {} ops = holding (stillOpen 0 ops) (openings ops) := by
  induction ops using List.reverseRecOn with
  | nil => rfl
  | append_singleton ops op ih =>
    rw [performAll_append, ih]
    show (holding (stillOpen 0 ops) (openings ops)).perform op = _
    cases op with
    | push name attributes classStyles =>
      rw [perform, push_holding, stillOpen_push, openings_push, Nat.zero_add]
    | pop name =>
      rw [stillOpen_pop, openings_pop, perform]
      rcases exists_last (stillOpen 0 ops) name with
        hnone | ⟨older, opening, newer, hleft, hname, hnewer, hwithout⟩
      · have hany : (stillOpen 0 ops).any (·.name == name) = false := by simpa using hnone
        rw [pop?_holding_none hnone, withoutLast_eq_self hany]
      · rw [hwithout, hleft, pop?_holding hname hnewer (hleft ▸ pairwise_stillOpen 0 ops)]

/-- Without open elements no frame is left. -/
theorem active_performAll_of_nil {ops : List StackOp} (h : (performAll {} ops).elements = []) :
    (performAll {} ops).active = [] := by
  rw [performAll_eq] at h ⊢
  have hleft : stillOpen 0 ops = [] := List.map_eq_nil_iff.1 (List.reverse_eq_nil_iff.1 h)
  rw [hleft]
  rfl

/-- **The stack of elements with their frames**, after every sequence of openings and closings: the
frames in force are those of the elements still open, in opening order; their serial numbers
increase, and the frames of an element carry its number. Closing a name that no element has changes
nothing. Otherwise it takes away the latest element of the name with its frames, reports its number
and keeps all other frames in order. -/
theorem performAll_refines (ops : List StackOp) :
    (performAll {} ops).active = (stillOpen 0 ops).flatMap Opening.frames ∧
      (stillOpen 0 ops).Pairwise (·.serial < ·.serial) ∧
      (∀ opening ∈ stillOpen 0 ops, ∀ frame ∈ opening.frames, frame.serial = opening.serial) ∧
      ∀ name,
        ((∀ opening ∈ stillOpen 0 ops, opening.name ≠ name) ∧
          (performAll {} ops).pop? name = none ∧
          performAll {} (ops ++ [.pop name]) = performAll {} ops) ∨
        ∃ older opening newer rest, stillOpen 0 ops = older ++ opening :: newer ∧
          opening.name = name ∧ (∀ other ∈ newer, other.name ≠ name) ∧
          (performAll {} ops).pop? name = some (opening.serial, rest) ∧
          performAll {} (ops ++ [.pop name]) = rest ∧
          stillOpen 0 (ops ++ [.pop name]) = older ++ newer ∧
          rest.active = (older ++ newer).flatMap Opening.frames ∧
          rest.active = (performAll {} ops).active.filter (·.serial ≠ opening.serial) := by
  refine ⟨congrArg active (performAll_eq ops), pairwise_stillOpen 0 ops,
    fun opening _ frame => Opening.serial_of_mem_frames, fun name => ?_⟩
  have hafter : performAll {} (ops ++ [.pop name]) = (performAll {} ops).perform (.pop name) :=
    performAll_append {} ops [.pop name]
  -- The name closes the latest opening that has it, or nothing.
  rcases exists_last (stillOpen 0 ops) name with
    hnone | ⟨older, opening, newer, hleft, hname, hnewer, hwithout⟩
  · have hpop : (performAll {} ops).pop? name = none := by
      rw [performAll_eq, pop?_holding_none hnone]
    refine .inl ⟨hnone, hpop, ?_⟩
    rw [hafter, perform, hpop]
  · have hserial := hleft ▸ pairwise_stillOpen 0 ops
    have hpop : (performAll {} ops).pop? name =
        some (opening.serial, holding (older ++ newer) (openings ops)) := by
      rw [performAll_eq, hleft, pop?_holding hname hnewer hserial]
    refine .inr ⟨older, opening, newer, _, hleft, hname, hnewer, hpop, ?_, ?_, rfl, ?_⟩
    · rw [hafter, perform, hpop]
    · rw [stillOpen_pop, hwithout]
    · rw [performAll_eq, hleft]
      exact flatMap_frames_filter hserial

/-- Closing an element that is not the latest one leaves the later ones open. -/
example : (stillOpen 0 [.push ['b'] [] [], .push ['i'] [] [], .pop ['b'], .pop ['u']]).map
    (·.serial) = [2] := by decide

end Stack

end ChapterLayout
