import ChapterLayout.Settings.Basic
import ChapterLayout.Settings.Draft
import ChapterLayout.Text.Quoted

/-! # Checking drafts

`Draft.check` makes settings of a draft, or finds the first thing wrong with it. The order of the
checks decides which of several faults is reported. -/

namespace ChapterLayout

/-- What is wrong with a draft. -/
inductive SettingsError where
  | notABundle
  | notAnInteger (name : Text)
  | notPositive (name : Text)
  | indentSizeTooSmall
  | listIndentNegative
  | notABoolean (name : Text)
  | thresholdNotANumber
  | thresholdOutOfRange
  | classStylesNotATable
  /-- A class is mapped to something that is no group. -/
  | invalidClassStyle (name : Text)
  deriving DecidableEq, Repr

namespace SettingsError

/-- A name as messages show it. -/
def marked (name : Text) : Text := ['\x60'] ++ name ++ ['\x60']

/-- The error's text. -/
def message : SettingsError → Text
  | notABundle => marked Setting.typography.name ++ " must be a Typography bundle".toList
  | notAnInteger name => marked name ++ " must be an integer".toList
  | notPositive name => marked name ++ " must be a positive integer".toList
  | indentSizeTooSmall => marked SpacingUnit.indentSize.name ++ " must be >= 2".toList
  | listIndentNegative => marked SpacingUnit.listIndent.name ++ " must be >= 0".toList
  | notABoolean name => marked name ++ " must be a boolean".toList
  | thresholdNotANumber => marked Setting.threshold.name ++ " must be a number".toList
  | thresholdOutOfRange => marked Setting.threshold.name ++ " must be within (0, 1]".toList
  | classStylesNotATable =>
    marked Setting.classStyles.name ++ " must be a table of class names to groups".toList
  | invalidClassStyle name =>
    "Invalid ".toList ++ marked Setting.classStyles.name ++ " entry for ".toList ++
      Text.quoted name

end SettingsError

namespace Draft

/-! ## Values of a kind -/

/-- The integer that a value is. -/
def integer (name : Text) (v : Value) : Except SettingsError Int :=
  match v.integer? with
  | some i => .ok i
  | none => .error (.notAnInteger name)

/-- The truth value that a value is. -/
def boolean (name : Text) (v : Value) : Except SettingsError Bool :=
  match v.boolean? with
  | some b => .ok b
  | none => .error (.notABoolean name)

/-- The proof that a proposition holds, or the error. -/
def ensure (p : Prop) [Decidable p] (e : SettingsError) : Except SettingsError (PLift p) :=
  if h : p then .ok ⟨h⟩ else .error e

/-- The threshold that a value is. -/
def number : Value → Except SettingsError Threshold
  | .integer i => .ok (.whole i)
  | .fraction x => .ok (.fraction x)
  | _ => .error .thresholdNotANumber

/-- Groups that classes can be mapped to. -/
abbrev CheckedStyles := { styles : ClassStyles // ∀ entry ∈ styles, entry.2 ≠ [] }

/-- The groups of classes that entries give. -/
def groups : List (Text × Value) → Except SettingsError CheckedStyles
  | [] => .ok ⟨[], by simp⟩
  | (name, v) :: entries =>
    match v with
    | .text (c :: s) => do
      let ⟨styles, h⟩ ← groups entries
      return ⟨(name, c :: s) :: styles, by
        intro entry member
        rcases List.mem_cons.1 member with rfl | member
        · exact List.cons_ne_nil _ _
        · exact h entry member⟩
    | _ => .error (.invalidClassStyle name)

/-- The groups of classes that a value gives. -/
def classGroups : Value → Except SettingsError CheckedStyles
  | .table entries => groups entries
  | _ => .error .classStylesNotATable

/-! ## All values -/

/-- The settings that the draft gives, if all its values are of the right kind and within their
ranges. -/
def check (draft : Draft) : Except SettingsError Settings := do
  match draft.typography with
  | .units indentSize listIndent paragraphSpacing =>
    let maxWidth ← integer Setting.maxWidth.name draft.maxWidth
    let maxFileSize ← integer Setting.maxFileSize.name draft.maxFileSize
    let indentSize ← integer SpacingUnit.indentSize.name indentSize
    let listIndent ← integer SpacingUnit.listIndent.name listIndent
    let paragraphSpacing ← integer SpacingUnit.paragraphSpacing.name paragraphSpacing
    let ⟨maxWidth_pos⟩ ← ensure (0 < maxWidth) (.notPositive Setting.maxWidth.name)
    let ⟨maxFileSize_pos⟩ ← ensure (0 < maxFileSize) (.notPositive Setting.maxFileSize.name)
    let ⟨spacing_pos⟩ ←
      ensure (0 < paragraphSpacing) (.notPositive SpacingUnit.paragraphSpacing.name)
    let ⟨indent⟩ ← ensure (2 ≤ indentSize) .indentSizeTooSmall
    let ⟨list⟩ ← ensure (0 ≤ listIndent) .listIndentNegative
    let justify ← boolean Setting.justify.name draft.justify
    let asciiEntities ← boolean Setting.asciiEntities.name draft.asciiEntities
    let threshold ← number draft.threshold
    let ⟨threshold_inUnitRange⟩ ←
      ensure (threshold.inUnitRange = true) .thresholdOutOfRange
    let ⟨classStyles, classStyles_nonempty⟩ ← classGroups draft.classStyles
    return {
      maxWidth, justify, classStyles, threshold, asciiEntities, maxFileSize, maxWidth_pos
      maxFileSize_pos, threshold_inUnitRange, classStyles_nonempty
      typography := ⟨indentSize, listIndent, paragraphSpacing⟩
      typography_valid := ⟨indent, list, spacing_pos⟩ }
  | _ => throw .notABundle

end Draft

namespace Settings

/-- The draft that holds the values of the settings. -/
def toDraft (settings : Settings) : Draft where
  maxWidth := .integer settings.maxWidth
  justify := .boolean settings.justify
  typography :=
    .units (.integer settings.typography.indentSize) (.integer settings.typography.listIndent)
      (.integer settings.typography.paragraphSpacing)
  classStyles := .table (settings.classStyles.map fun (name, group) => (name, .text group))
  threshold :=
    match settings.threshold with
    | .whole i => .integer i
    | .fraction x => .fraction x
  asciiEntities := .boolean settings.asciiEntities
  maxFileSize := .integer settings.maxFileSize

end Settings

end ChapterLayout
