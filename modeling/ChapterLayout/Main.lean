import ChapterLayout.Command.Run

/-! # The command line program

Reads the part of the file system that a run can look at, runs the command on it, and writes what
the run gives. -/

namespace ChapterLayout.Command

/-- The text of a path from the root. -/
def absoluteText (names : List Text) : String := String.ofList (Path.text ⟨['/'], names⟩)

/-- What stands under the given names in the file system, if anything does. If `follow` holds, a
link is followed, and otherwise it is taken to lead straight to its last target. -/
def readEntry (follow : Bool) (names : List Text) : IO (Option Entry) := do
  let path := (← IO.currentDir) / absoluteText names
  try
    match (← if follow then path.metadata else path.symlinkMetadata).type with
    | .file => return some (.file (← IO.FS.readBinFile path).toList)
    | .dir => return some .directory
    | .symlink => return some (.link (toString (← IO.FS.realPath path)).toList)
    | .other => return some .pipe
  catch _ => return none

/-- The tree with the entry under the given names, as the file system has it. -/
def addEntry (tree : Tree) (follow : Bool) (names : List Text) : IO Tree := do
  match ← readEntry follow names with
  | some entry => return tree.add names entry
  | none => return tree

/-- The tree with everything that leads to the given names, and with the settings files on the
way. -/
def addWay (tree : Tree) (names : List Text) : IO Tree := do
  let mut tree := tree
  for count in List.range (names.length + 1) do
    let directory := names.take count
    tree ← addEntry tree false directory
    for file in SettingsFile.all do
      tree ← addEntry tree true (directory ++ [file.name])
  return tree

/-- The tree of files that a run with the given arguments can look at. -/
def readTree (args : List Text) : IO Tree := do
  let workdir := (Path.ofText (toString (← IO.currentDir)).toList).names
  let home := (← IO.getEnv "HOME").map fun s => (Path.ofText s.toList).names
  let mut tree : Tree := { workdir, home }
  for arg in args do
    match tree.expandHome (Path.ofText arg) with
    | .ok path => tree ← addWay tree (tree.namesOf path)
    | .error _ => pure ()
  return tree

/-- Runs the command on the file system and gives its exit code. -/
def runProgram (args : List Text) : IO UInt32 := do
  let limit := (← IO.getEnv (String.ofList SizeLimitError.variableName)).map String.toList
  let outcome := run (← readTree args) limit (← (← IO.getStdout).isTty) args
  IO.eprint (String.ofList outcome.notices)
  IO.print (String.ofList outcome.output)
  match outcome.failure with
  | none => return 0
  | some failure =>
    IO.eprintln ("Error: " ++ String.ofList failure.message)
    return failure.exitCode.toUInt32

end ChapterLayout.Command

/-- Lays out the chapter file that the arguments name. -/
def main (args : List String) : IO UInt32 :=
  ChapterLayout.Command.runProgram (args.map String.toList)
