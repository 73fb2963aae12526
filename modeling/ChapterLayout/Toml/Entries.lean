import ChapterLayout.Settings.Value
import ChapterLayout.Toml.Fault

/-! # Nested tables

The entries of a table in the order in which their names first came up, and changing the table that
a key leads to. A list of tables stands for its last table. -/

namespace ChapterLayout.Toml

/-- The entries of a table. -/
abbrev Entries := List (Text × Value)

namespace Entries

/-- The entries with another value for a name they hold. -/
def replace (entries : Entries) (name : Text) (value : Value) : Entries :=
  entries.map fun entry => if entry.1 == name then (name, value) else entry

/-- The entries after `change` is made to the table that the key leads to. Tables that are missing
on the way are added. The way goes through tables, and if `lists` holds through the last tables of
lists. -/
def update? (lists : Bool) (change : Entries → Option Entries) : Key → Entries → Option Entries
  | [], entries => change entries
  | name :: key, entries =>
    match entries.lookup name with
    | none => (update? lists change key []).map fun inner => entries ++ [(name, .table inner)]
    | some (.table inner) =>
      (update? lists change key inner).map fun inner => entries.replace name (.table inner)
    | some (.list items) =>
      match lists, items.getLast? with
      | true, some (.table inner) =>
        (update? lists change key inner).map fun inner =>
          entries.replace name (.list (items.dropLast ++ [.table inner]))
      | _, _ => none
    | some _ => none

/-- The entries with one more entry, if its name is new. -/
def add? (name : Text) (value : Value) (entries : Entries) : Option Entries :=
  if (entries.lookup name).isSome then none else some (entries ++ [(name, value)])

/-- The entries with one more table in the list of the given name. -/
def addTable? (name : Text) (entries : Entries) : Option Entries :=
  match entries.lookup name with
  | none => some (entries ++ [(name, .list [.table []])])
  | some (.list items) => some (entries.replace name (.list (items ++ [.table []])))
  | some _ => none

/-- The value that a key leads to through tables. -/
def find? (entries : Entries) : Key → Option Value
  | [] => some (.table entries)
  | [name] => entries.lookup name
  | name :: key =>
    match entries.lookup name with
    | some (.table inner) => find? inner key
    | _ => none

end Entries

end ChapterLayout.Toml
