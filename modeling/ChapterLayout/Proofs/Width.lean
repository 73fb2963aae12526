import ChapterLayout.Proofs.Flow.Word
import ChapterLayout.Proofs.Table.Rectangle
import ChapterLayout.Text.Table.Unprintable

/-! # Widths that add up

A text is measured in one of two ways, and the whole text decides which: the characters of printable
ASCII are counted, and those of every other text are looked up one by one. The layout works with
sums nevertheless. It adds the columns of a word to those of a line, widens the gaps of a line by
what it lacks, and pads a cell by what its text leaves free.

* **`Text.all_isPlain_iff`** — the texts that are counted are those of printable ASCII;
* **`Text.width_eq_sum`** — counted or looked up, the width is the sum over the characters;
* **`Flow.makeRoom_eq`** — a word asks for the columns of the line that it would stand on;
* **`width_spreadText`** — a spread line takes the columns of its gaps and of its words;
* **`width_additive`** — texts, lines that are filled or spread, and padded cells take the columns
  of their pieces. -/

namespace ChapterLayout

/-! ## (1) Counting and looking up -/

namespace Text

/-- The two ends of the range are where the printable characters of ASCII begin and end. -/
theorem isPlain_iff (c : Char) :
    isPlain c = true ↔ c.toNat < 0x80 ∧ unprintable.contains c.toNat = false := by
  have htable : ∀ code < 0x80, unprintable.contains code = false ↔ 0x20 ≤ code ∧ code < 0x7F := by
    decide +kernel
  rw [isPlain, Bool.and_eq_true, decide_eq_true_iff, decide_eq_true_iff]
  constructor
  · rintro ⟨hspace, hdelete⟩
    have hascii : c.toNat < 0x80 := by omega
    exact ⟨hascii, (htable _ hascii).2 ⟨hspace, hdelete⟩⟩
  · rintro ⟨hascii, hprintable⟩
    exact (htable _ hascii).1 hprintable

/-- **The texts that are counted** are in ASCII and hold no character without a visible form. -/
theorem all_isPlain_iff (s : Text) : s.all isPlain = true ↔
    ∀ c ∈ s, c.toNat < 0x80 ∧ unprintable.contains c.toNat = false := by
  simp only [List.all_eq_true, isPlain_iff]

/-- **The width is the sum over the characters,** whichever way it is found. -/
theorem width_eq_sum (s : Text) : width s = (s.map charWidth).sum := by
  induction s with
  | nil => rfl
  | cons c s ih => rw [width_cons, ih, List.map_cons, List.sum_cons]

end Text

/-! ## (2) Sums of widths in the layout -/

namespace Flow

/-- What separates words takes as many columns as it has characters. -/
theorem width_separator (flow : Flow) : Text.width flow.separator = flow.separator.length := by
  unfold separator
  split
  · rfl
  · split <;> rfl

/-- **A word wraps** if the line would be too wide with it and holds a word already. -/
theorem makeRoom_eq (settings : Settings) (flow : Flow) (word : Text) :
    flow.makeRoom settings word =
      if settings.maxWidth < Text.width (flow.current ++ flow.separator ++ word) && flow.hasWords
      then { flow.commit with current := flow.continuation }
      else { flow with current := flow.current ++ flow.separator } := by
  have hwidth : Text.width (flow.current ++ flow.separator ++ word) =
      Text.width flow.current + flow.separator.length + Text.width word := by
    rw [Text.width_append, Text.width_append, width_separator]
  rw [makeRoom, hwidth]

end Flow

/-- **A spread line** is as wide as its gaps and its words. -/
theorem width_spreadText (gaps : List (Int × Run)) :
    Text.width (spreadText gaps) =
      (gaps.map fun (gap, run) => gap.toNat + Text.width run.word).sum := by
  induction gaps with
  | nil => rfl
  | cons pair gaps ih =>
    have hcons : spreadText (pair :: gaps) =
        Text.spaces pair.1 ++ pair.2.word ++ spreadText gaps := List.flatMap_cons
    rw [hcons, Text.width_append, Text.width_append, ih, Text.spaces, Text.width_replicate_space,
      List.map_cons, List.sum_cons]

/-! ## (3) Additivity -/

/-- **Widths add up.** A text takes the columns of its parts, wherever it is cut, and those of its
characters, whether they are counted or looked up. So a word wraps if the line with it on would be
too wide, a spread line takes the columns of its gaps and words, and a padded cell fills its column
unless its text is wider. -/
theorem width_additive :
    (∀ s t : Text, Text.width (s ++ t) = Text.width s + Text.width t) ∧
    (∀ s : Text, Text.width s = (s.map Text.charWidth).sum ∧
      (s.all Text.isPlain = true ↔
        ∀ c ∈ s, c.toNat < 0x80 ∧ Text.unprintable.contains c.toNat = false)) ∧
    (∀ (settings : Settings) (flow : Flow) (word : Text), flow.makeRoom settings word =
      if settings.maxWidth < Text.width (flow.current ++ flow.separator ++ word) && flow.hasWords
      then { flow.commit with current := flow.continuation }
      else { flow with current := flow.current ++ flow.separator }) ∧
    (∀ gaps : List (Int × Run), Text.width (spreadText gaps) =
      (gaps.map fun (gap, run) => gap.toNat + Text.width run.word).sum) ∧
    ∀ (s : Text) (columns : Int),
      (Text.width (Table.padCell s columns) : Int) = max (Text.width s : Int) columns :=
  ⟨Text.width_append, fun s => ⟨Text.width_eq_sum s, Text.all_isPlain_iff s⟩, Flow.makeRoom_eq,
    width_spreadText, Table.width_padCell_eq_max⟩

/-- A text with a control, a mark and a wide character is looked up, and the text behind it would be
counted alone. -/
example : Text.width ("\té\u0301日".toList ++ " ab".toList) = 3 + 3 := by decide +kernel

end ChapterLayout
