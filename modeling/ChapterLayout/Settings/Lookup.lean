import ChapterLayout.FileTree.Tree
import ChapterLayout.Notice
import ChapterLayout.Settings.Checked
import ChapterLayout.Toml.Document

/-! # Settings of a directory

The settings of a directory stand in the nearest settings file above it that has a table for them.
`Tree.findDraft` looks for that table from the directory up to the root, and `Tree.findSettings`
also applies overrides and checks the result. A file that cannot be read is passed over with a
notice. -/

namespace ChapterLayout

/-- A settings file: its name and the keys of the tables that may hold the settings, in order. -/
structure SettingsFile where
  name : Text
  tables : List Toml.Key
  deriving DecidableEq, Repr

namespace SettingsFile

/-- The name of this program's table. -/
def ownTable : Text := "ink-layout".toList

/-- The key of this program's table among those of other tools. -/
def toolTable : Toml.Key := ["tool".toList, ownTable]

/-- The settings files of a directory, in the order in which they are looked at. -/
def all : List SettingsFile :=
  [⟨"pyproject.toml".toList, [toolTable]⟩, ⟨".ink-layout.toml".toList, [[ownTable], toolTable]⟩]

end SettingsFile

/-- Why the settings of a directory cannot be found. -/
inductive LookupError where
  /-- Links lead in a circle. -/
  | circle (path : Path)
  | system (e : SystemError) (path : Path)
  /-- A settings file is not encoded in UTF-8. -/
  | notUtf8 (path : Path)
  /-- An integer of a settings file has too many digits. -/
  | tooManyDigits (flaw : Toml.Flaw)
  /-- The table of settings is no table or holds something that is no setting. -/
  | invalidTable (table : Toml.Key) (path : Path)
  deriving DecidableEq, Repr

namespace LookupError

/-- The error's text. -/
def message : LookupError → Text
  | circle path => "Symlink loop from ".toList ++ Text.quoted path.text
  | system e path => e.message path
  | notUtf8 path => path.text
  | tooManyDigits flaw => flaw.message
  | invalidTable table path =>
    "Invalid ".toList ++ ['\x60', '['] ++ ['.'].intercalate table ++ [']', '\x60'] ++
      " settings in ".toList ++ path.text

end LookupError

/-- The draft that a value gives as the table of settings. -/
def Draft.ofTable? : Value → Option Draft
  | .table entries =>
    match entries.lookup Setting.typography.name with
    | none => Draft.ofEntries? entries
    | some (.table _) => Draft.ofEntries? entries
    | some _ => none
  | _ => none

/-- What a look at a settings file comes to. -/
inductive Glance where
  /-- There is no such file, or it has no table of settings. -/
  | nothing
  /-- The file cannot be read, for the given reason. -/
  | unreadable (reason : Text)
  /-- The file has a table of settings at the given key. -/
  | table (key : Toml.Key) (value : Value)

namespace Tree

/-- The entries of a settings file, or why it cannot be read. -/
def readEntries (tree : Tree) (path : Path) :
    Except LookupError (Except Text Toml.Entries) :=
  match tree.find path with
  | .error e => .ok (.error (e.message path))
  | .ok .directory => .ok (.error (SystemError.message .isADirectory path))
  | .ok (.file bytes) =>
    match Utf8.decode? bytes with
    | none => .error (.notUtf8 path)
    | some document =>
      match Toml.read document with
      | .ok entries => .ok (.ok entries)
      | .error ⟨.tooManyDigits count, _⟩ => .error (.tooManyDigits (.tooManyDigits count))
      | .error fault => .ok (.error (Toml.faultMessage document fault))
  | .ok _ => .ok (.ok [])

/-- Looks at a settings file. -/
def glance (tree : Tree) (path : Path) (tables : List Toml.Key) : Except LookupError Glance :=
  match tree.find path with
  | .error .nameTooLong => .error (.system .nameTooLong path)
  | .error _ => .ok .nothing
  | .ok _ => do
    match ← tree.readEntries path with
    | .error reason => return .unreadable reason
    | .ok entries =>
      return ((tables.filterMap fun key =>
        (Toml.Entries.find? entries key).map (Glance.table key)).head?).getD .nothing

/-- The draft in the first of the given files that has a table of settings, and the default if none
has, with the notices on the way. -/
def firstDraft (tree : Tree) : List (Path × List Toml.Key) →
    List Notice × Except LookupError Draft
  | [] => ([], .ok {})
  | (path, tables) :: files =>
    match tree.glance path tables with
    | .error e => ([], .error e)
    | .ok .nothing => tree.firstDraft files
    | .ok (.unreadable reason) =>
      let (notices, draft) := tree.firstDraft files
      (.skipped path.text reason :: notices, draft)
    | .ok (.table key value) =>
      match Draft.ofTable? value with
      | some draft => ([.loaded path.text], .ok draft)
      | none => ([.loaded path.text], .error (.invalidTable key path))

/-- The settings files that concern a directory, the nearest ones first. -/
def settingsFiles (directory : Path) : List (Path × List Toml.Key) :=
  directory.withParents.flatMap fun parent =>
    SettingsFile.all.map fun file => (parent.child file.name, file.tables)

/-- The draft of the settings of a directory, with the notices on the way. -/
def findDraft (tree : Tree) (directory : Path) : List Notice × Except LookupError Draft :=
  match tree.resolve directory false with
  | .error (.circle path) => ([], .error (.circle path))
  | .error (.system e path) => ([], .error (.system e path))
  | .ok directory => tree.firstDraft (settingsFiles directory)

/-- Why the settings of a directory cannot be used. -/
inductive FindError where
  | lookup (e : LookupError)
  | override (e : Draft.OverrideError)
  | settings (e : SettingsError)
  deriving DecidableEq, Repr

/-- The settings of a directory with overrides, and the notices on the way. -/
def findSettings (tree : Tree) (directory : Path) (overrides : List (Text × Value)) :
    List Notice × Except FindError Settings :=
  let (notices, draft) := tree.findDraft directory
  (notices, do
    let draft ← draft.mapError .lookup
    let draft ← (draft.override overrides).mapError .override
    draft.check.mapError .settings)

end Tree

end ChapterLayout
