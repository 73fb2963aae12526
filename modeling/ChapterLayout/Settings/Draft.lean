import ChapterLayout.Settings.Value

/-! # Drafts of settings

A draft holds a value of any kind for every setting. It is made from the entries of a table with
`Draft.ofEntries?`, and `Draft.override` replaces some of its values. The units of typography can be
overridden one by one: they are taken from the bundle that the draft holds. -/

namespace ChapterLayout

/-- The settings, by what they are called. -/
inductive Setting where
  | maxWidth
  | justify
  | typography
  | classStyles
  | threshold
  | asciiEntities
  | maxFileSize
  deriving DecidableEq, Repr

namespace Setting

/-- All settings. -/
def all : List Setting :=
  [maxWidth, justify, typography, classStyles, threshold, asciiEntities, maxFileSize]

/-- The name of a setting. -/
def name : Setting → Text
  | maxWidth => "max_width".toList
  | justify => "justify".toList
  | typography => "typography".toList
  | classStyles => "class_styles".toList
  | threshold => "justify_threshold".toList
  | asciiEntities => "ascii_entities".toList
  | maxFileSize => "max_file_size".toList

/-- The setting of a name. -/
def ofName? (s : Text) : Option Setting := all.find? (·.name == s)

end Setting

/-- The units of typography. -/
inductive SpacingUnit where
  | indentSize
  | listIndent
  | paragraphSpacing
  deriving DecidableEq, Repr

namespace SpacingUnit

/-- All units. -/
def all : List SpacingUnit := [indentSize, listIndent, paragraphSpacing]

/-- The name of a unit. -/
def name : SpacingUnit → Text
  | indentSize => "indent_size".toList
  | listIndent => "list_indent".toList
  | paragraphSpacing => "paragraph_spacing".toList

/-- The unit of a name. -/
def ofName? (s : Text) : Option SpacingUnit := all.find? (·.name == s)

end SpacingUnit

namespace Value

/-! ## Bundles of units -/

/-- The units in use where none are given. -/
def defaultUnits : Value := units (integer 4) (integer 2) (integer 1)

/-- The bundle with another value for one unit. Only a bundle has units. -/
def setUnit? (value : Value) (unit : SpacingUnit) (v : Value) : Option Value :=
  match value, unit with
  | units _ l p, .indentSize => some (units v l p)
  | units i _ p, .listIndent => some (units i v p)
  | units i l _, .paragraphSpacing => some (units i l v)
  | _, _ => none

/-- The bundle that the entries of a table give, if all of them are units. -/
def unitsOfEntries? (entries : List (Text × Value)) : Option Value :=
  entries.foldlM (fun bundle (name, v) => do bundle.setUnit? (← SpacingUnit.ofName? name) v)
    defaultUnits

/-- The value with a table of units made into a bundle. -/
def bundled? : Value → Option Value
  | table entries => unitsOfEntries? entries
  | value => some value

end Value

/-- A value for every setting. -/
structure Draft where
  maxWidth : Value := .integer 80
  justify : Value := .boolean false
  typography : Value := .defaultUnits
  classStyles : Value := .table []
  threshold : Value := .fraction (.ratio 9 10)
  asciiEntities : Value := .boolean false
  maxFileSize : Value := .integer (10 * 1024 * 1024)
  deriving Repr

namespace Draft

/-- The draft with another value for one setting. -/
def set (draft : Draft) (setting : Setting) (v : Value) : Draft :=
  match setting with
  | .maxWidth => { draft with maxWidth := v }
  | .justify => { draft with justify := v }
  | .typography => { draft with typography := v }
  | .classStyles => { draft with classStyles := v }
  | .threshold => { draft with threshold := v }
  | .asciiEntities => { draft with asciiEntities := v }
  | .maxFileSize => { draft with maxFileSize := v }

/-- The value for a setting. -/
def get (draft : Draft) : Setting → Value
  | .maxWidth => draft.maxWidth
  | .justify => draft.justify
  | .typography => draft.typography
  | .classStyles => draft.classStyles
  | .threshold => draft.threshold
  | .asciiEntities => draft.asciiEntities
  | .maxFileSize => draft.maxFileSize

/-- The draft with the values of the given entries, if all of them are settings. -/
def setAll? (draft : Draft) (entries : List (Text × Value)) : Option Draft :=
  entries.foldlM (fun draft (name, v) => (Setting.ofName? name).map (draft.set · v)) draft

/-- The draft that the entries of a table give, if all of them are settings. A table of typography
holds units. -/
def ofEntries? (entries : List (Text × Value)) : Option Draft := do
  let draft ← setAll? {} entries
  return { draft with typography := ← draft.typography.bundled? }

/-! ## Overrides -/

/-- Why a draft cannot be overridden. -/
inductive OverrideError where
  /-- A name is no setting and no unit. -/
  | unknownName
  /-- Units are given, but the draft holds no bundle to take them. -/
  | noBundle
  deriving DecidableEq, Repr

/-- The entries that override something: those with a value. -/
def effective (overrides : List (Text × Value)) : List (Text × Value) :=
  overrides.filter (!·.2.isNull)

/-- The units among the entries. -/
def unitEntries (entries : List (Text × Value)) : List (SpacingUnit × Value) :=
  entries.filterMap fun (name, v) => (SpacingUnit.ofName? name).map (·, v)

/-- The entries that are no units. -/
def settingEntries (entries : List (Text × Value)) : List (Text × Value) :=
  entries.filter fun entry => (SpacingUnit.ofName? entry.1).isNone

/-- The bundle of the draft with the given units. -/
def bundleWith? (draft : Draft) (units : List (SpacingUnit × Value)) : Option Value :=
  units.foldlM (fun bundle (unit, v) => bundle.setUnit? unit v) draft.typography

/-- The draft with other values for some settings and units. Where units are given, the bundle made
with them is taken, whatever is given for the typography as a whole. -/
def override (draft : Draft) (overrides : List (Text × Value)) : Except OverrideError Draft :=
  let changes := effective overrides
  match draft.setAll? (settingEntries changes) with
  | none => .error .unknownName
  | some changed =>
    match unitEntries changes with
    | [] => .ok changed
    | units =>
      match draft.bundleWith? units with
      | none => .error .noBundle
      | some bundle => .ok { changed with typography := bundle }

end Draft

end ChapterLayout
