import ChapterLayout.Proofs.Flow.Nesting
import ChapterLayout.Proofs.Limits

/-! # Indentations within the limits

The layout of tokens fails only where it makes an indentation that memory cannot hold:

* **`Flow.IndentsFit`** — whether memory can hold every indentation that steps make;
* **`Flow.exists_steps?_iff`** — steps lead to a state exactly if that is so;
* **`Flow.lists_length_le`** — no more lists are open than tags have opened;
* **`Flow.indentsFit_of_lt`** — so memory can hold every indentation of a chapter if it can hold one
  unit of each kind, and that of lists as often as the chapter opens one. -/

namespace ChapterLayout

/-- Whether a token is the opening tag of a list. -/
def Token.opensList : Token → Bool
  | .opening name _ => (TagRole.ofName name).kind? == some .list
  | _ => false

/-- No part of an indentation has a negative width. -/
theorem BlockContext.indentCopies_nonneg (context : BlockContext) (settings : Settings) :
    ∀ count ∈ context.indentCopies settings.typography, 0 ≤ count := by
  intro count hcount
  have hindent := settings.typography_valid.two_le_indentSize
  have hlists : 0 ≤ settings.typography.listIndent * context.lists.length :=
    Int.mul_nonneg settings.typography_valid.listIndent_nonneg (Int.natCast_nonneg _)
  simp only [indentCopies, List.mem_append, List.mem_ite_nil_right, List.mem_singleton] at hcount
  omega

/-- Memory can hold an indentation if it can hold the unit of indentation and the indentation of the
open lists. -/
theorem BlockContext.indentCopies_lt {settings : Settings} (context : BlockContext)
    (hindent : settings.typography.indentSize < LimitError.memorySize)
    (hlists : settings.typography.listIndent * context.lists.length < LimitError.memorySize) :
    ∀ count ∈ context.indentCopies settings.typography, count < LimitError.memorySize := by
  intro count hcount
  simp only [indentCopies, List.mem_append, List.mem_ite_nil_right, List.mem_singleton] at hcount
  omega

namespace Flow

variable {settings : Settings} {flow : Flow}

/-! ## (1) Steps -/

/-- Whether memory can hold every indentation that steps make from a state on. -/
def IndentsFit (flow : Flow) (settings : Settings) (steps : List Step) : Prop :=
  ∀ (before : List Step) (s : Step) (after : List Step), steps = before ++ s :: after →
    (before.foldl (fun flow s => flow.step settings s) flow).makesIndent s = true →
      ∀ count ∈ (before.foldl (fun flow s => flow.step settings s) flow).context.indentCopies
        settings.typography, count < LimitError.memorySize

/-- A step leads to a state exactly if memory can hold the indentation it makes, if any. -/
theorem exists_step?_iff {s : Step} : (∃ flow', flow.step? settings s = .ok flow') ↔
    (flow.makesIndent s = true → ∀ count ∈ flow.context.indentCopies settings.typography,
      count < LimitError.memorySize) := by
  have hcheck := LimitError.checkCopies_eq_ok_iff
    (flow.context.indentCopies_nonneg settings)
  rw [step?]
  split
  · rename_i hmakes
    rw [exists_bind_ok_iff, ← hcheck]
    constructor
    · rintro ⟨⟨⟩, h, -⟩ -
      exact h
    · intro h
      exact ⟨(), h hmakes, _, rfl⟩
  · rename_i hmakes
    exact iff_of_true ⟨_, rfl⟩ fun h => absurd h hmakes

/-- The indentations of a run fit if that of its first step does and those of the rest do. -/
theorem indentsFit_cons {s : Step} {steps : List Step} : flow.IndentsFit settings (s :: steps) ↔
    (flow.makesIndent s = true → ∀ count ∈ flow.context.indentCopies settings.typography,
      count < LimitError.memorySize) ∧ (flow.step settings s).IndentsFit settings steps := by
  constructor
  · intro h
    exact ⟨h [] s steps rfl, fun before t after heq => h (s :: before) t after (by rw [heq]; rfl)⟩
  · rintro ⟨hfirst, hrest⟩ before t after heq
    cases before with
    | nil =>
      obtain ⟨rfl, -⟩ := List.cons.inj heq
      exact hfirst
    | cons _ before =>
      obtain ⟨rfl, hsteps⟩ := List.cons.inj heq
      exact hrest before t after hsteps

/-- **Steps lead to a state** exactly if memory can hold every indentation they make. -/
theorem exists_steps?_iff {steps : List Step} :
    (∃ flow', flow.steps? settings steps = .ok flow') ↔ flow.IndentsFit settings steps := by
  induction steps generalizing flow with
  | nil => exact iff_of_true ⟨flow, rfl⟩ fun before s after h => by simp at h
  | cons s steps ih =>
    rw [indentsFit_cons, ← exists_step?_iff, ← ih, steps?, List.foldlM_cons, exists_bind_ok_iff]
    constructor
    · rintro ⟨next, hnext, hrest⟩
      rw [← eq_step_of_step? hnext]
      exact ⟨⟨next, hnext⟩, hrest⟩
    · rintro ⟨⟨next, hnext⟩, hrest⟩
      rw [← eq_step_of_step? hnext] at hrest
      exact ⟨next, hnext, hrest⟩

/-! ## (2) The lists that are open -/

/-- A token opens one list at most. -/
theorem lists_length_feed_le (settings : Settings) (flow : Flow) (token : Token) :
    (flow.feed settings token).context.lists.length ≤
      flow.context.lists.length + token.opensList.toNat := by
  cases token with
  | text s => exact ((sameBlocks_feedText flow s).depth .list).le
  | empty name attributes => exact ((sameBlocks_emptyTag flow name attributes).depth .list).le
  | closing name => exact ((closed_closeTag settings flow name).depth .list).trans (Nat.sub_le _ _)
  | opening name attributes =>
    refine ((opened_openTag settings flow name attributes).depth .list).trans ?_
    have htouches : (flow.touches name .list).toNat ≤
        (Token.opening name attributes).opensList.toNat := by
      rw [touches, Token.opensList]
      cases flow.hides (TagRole.ofName name) <;> simp
    exact Nat.add_le_add_left htouches _

/-- **No more lists are open** than tags have opened. -/
theorem lists_length_le (settings : Settings) (flow : Flow) (tokens : List Token) :
    (flow.feedAll settings tokens).context.lists.length ≤
      flow.context.lists.length + tokens.countP Token.opensList := by
  induction tokens generalizing flow with
  | nil => exact Nat.le_refl _
  | cons token tokens ih =>
    have hfirst := lists_length_feed_le settings flow token
    have hrest : (flow.feedAll settings (token :: tokens)).context.lists.length ≤
        (flow.feed settings token).context.lists.length + tokens.countP Token.opensList := ih _
    have hcount : token.opensList.toNat = if token.opensList then 1 else 0 := by
      cases token.opensList <;> rfl
    rw [List.countP_cons]
    omega

/-! ## (3) Chapters -/

/-- **Memory can hold every indentation of a chapter** if it can hold the unit of indentation, and
the indentation of lists as often as the chapter opens one. -/
theorem indentsFit_of_lt {tokens : List Token}
    (hindent : settings.typography.indentSize < LimitError.memorySize)
    (hlists : settings.typography.listIndent * tokens.countP Token.opensList <
      LimitError.memorySize) :
    IndentsFit {} settings (tokens.map .token ++ [.finish]) := by
  intro before s after heq _
  -- Every step but the last one is a token, so a state between two steps is one between tokens.
  have hprefix : before = (tokens.take before.length).map .token := by
    have hlength : before.length ≤ (tokens.map Step.token).length := by
      have h := congrArg List.length heq
      simp only [List.length_append, List.length_cons, List.length_nil] at h
      omega
    rw [List.map_take, ← List.take_append_of_le_length hlength, heq, List.take_left]
  generalize before.length = n at hprefix
  subst hprefix
  rw [List.foldl_map]
  have hdepth := lists_length_le settings {} (tokens.take n)
  have hcount : (tokens.take n).countP Token.opensList ≤ tokens.countP Token.opensList :=
    (List.take_sublist n tokens).countP_le
  refine BlockContext.indentCopies_lt _ hindent (Int.lt_of_le_of_lt ?_ hlists)
  refine Int.mul_le_mul_of_nonneg_left ?_ settings.typography_valid.listIndent_nonneg
  exact_mod_cast hdepth.trans ((Nat.zero_add _).trans_le hcount)

end Flow

end ChapterLayout
