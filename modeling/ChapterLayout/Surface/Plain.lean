import ChapterLayout.Text.Basic

/-! # Plain text

Text without the control sequences that a terminal obeys. A sequence is an escape, a bracket, digits
and separators, and a letter; an escape that starts no such sequence stays. -/

namespace ChapterLayout.Text

/-- Whether a character may stand between the bracket and the letter of a control sequence. -/
def isControlParameter (c : Char) : Bool := c.isDigit || c == ';' || c == '?'

/-- The rest after a control sequence at the start of a text. -/
def afterControl? : Text → Option Text
  | '\x1b' :: '[' :: s =>
    match s.dropWhile isControlParameter with
    | [] => none
    | c :: rest => if c.isAlpha then some rest else none
  | _ => none

/-- What is left behind a control sequence is shorter than what it was read from. -/
theorem afterControl?_length {s rest : Text} (h : afterControl? s = some rest) :
    rest.length < s.length := by
  unfold afterControl? at h
  split at h
  · next t =>
    have le : (t.dropWhile isControlParameter).length ≤ t.length :=
      (List.dropWhile_sublist _).length_le
    split at h
    · simp at h
    · next c r eq =>
      split at h
      · simp only [Option.some.injEq] at h
        subst h
        rw [eq] at le
        simp only [List.length_cons] at le ⊢
        omega
      · simp at h
  · simp at h

/-- The text without control sequences. -/
def plain (s : Text) : Text :=
  match _h : afterControl? s with
  | some rest => plain rest
  | none =>
    match s with
    | [] => []
    | c :: s => c :: plain s
termination_by s.length
decreasing_by
  · exact afterControl?_length _h
  · simp

end ChapterLayout.Text
