import ChapterLayout.Block.Typography
import ChapterLayout.Justify.Pass

/-! # Layout settings

The settings of one layout run. The type holds what a run relies on: sizes are positive, a quotation
has room for its bar, and the threshold lies above zero and is at most one. -/

namespace ChapterLayout

namespace Threshold

/-- Whether the threshold lies above zero and is at most one. -/
def inUnitRange : Threshold → Bool
  | whole i => decide (0 < i) && decide (i ≤ 1)
  | fraction x => x.inUnitRange

end Threshold

namespace Typography

/-- Units a layout run can work with. -/
structure Valid (typography : Typography) : Prop where
  two_le_indentSize : 2 ≤ typography.indentSize
  listIndent_nonneg : 0 ≤ typography.listIndent
  paragraphSpacing_pos : 0 < typography.paragraphSpacing

instance (typography : Typography) : Decidable typography.Valid :=
  decidable_of_iff
    (2 ≤ typography.indentSize ∧ 0 ≤ typography.listIndent ∧ 0 < typography.paragraphSpacing)
    ⟨fun h => ⟨h.1, h.2.1, h.2.2⟩, fun h => ⟨h.1, h.2, h.3⟩⟩

end Typography

/-- The settings of one layout run. -/
structure Settings where
  /-- The width that lines are wrapped to. -/
  maxWidth : Int := 80
  /-- Whether the words of full lines are spread to that width. -/
  justify : Bool := false
  typography : Typography := {}
  /-- The highlight groups that classes are mapped to. -/
  classStyles : ClassStyles := []
  /-- The part of the width that a line has to fill before its words are spread. -/
  threshold : Threshold := .default
  /-- Whether numeric references beyond ASCII are dropped. -/
  asciiEntities : Bool := false
  /-- The greatest number of bytes of a chapter file. -/
  maxFileSize : Int := 10 * 1024 * 1024
  maxWidth_pos : 0 < maxWidth := by decide
  maxFileSize_pos : 0 < maxFileSize := by decide
  typography_valid : typography.Valid := by decide
  threshold_inUnitRange : threshold.inUnitRange = true := by decide
  classStyles_nonempty : ∀ entry ∈ classStyles, entry.2 ≠ [] := by decide

end ChapterLayout
