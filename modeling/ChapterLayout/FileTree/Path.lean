import ChapterLayout.Text.Basic

/-! # Paths

A path is a root and a list of names. Reading a path drops empty names and single points, so that
equal spellings give equal paths; double points are kept, since what they mean depends on links. -/

namespace ChapterLayout

/-- A path. -/
structure Path where
  /-- What the path starts with: one slash or exactly two if it is absolute, and nothing else. -/
  root : Text
  names : List Text
  deriving DecidableEq, Repr

namespace Path

/-- The name of the directory itself. -/
def here : Text := ['.']

/-- The name of the directory above. -/
def above : Text := ['.', '.']

/-- The root of a path: two slashes count only if no third one follows. -/
def rootOf : Text → Text
  | '/' :: '/' :: '/' :: _ => ['/']
  | '/' :: '/' :: _ => ['/', '/']
  | '/' :: _ => ['/']
  | _ => []

/-- The parts of a text between its slashes. A path is read along them from left to right. -/
def parts (s : Text) : List Text := Text.splitOn '/' s

/-- Whether a part leads nowhere else, since it is empty or a single point. -/
def stays (part : Text) : Bool := part.isEmpty || part == here

/-- The path that a text writes. -/
def ofText (s : Text) : Path := ⟨rootOf s, (parts s).filter (!stays ·)⟩

/-- Whether the path starts at the root of the tree. -/
def isAbsolute (path : Path) : Bool := !path.root.isEmpty

/-- The text of a path; the path without names is written as a point. -/
def text (path : Path) : Text :=
  if path.root.isEmpty && path.names.isEmpty then here
  else path.root ++ ['/'].intercalate path.names

/-- The path without its last name. -/
def parent (path : Path) : Path := { path with names := path.names.dropLast }

/-- The path followed by another name. -/
def child (path : Path) (name : Text) : Path := { path with names := path.names ++ [name] }

/-- The path followed by more parts of a text. Parts that begin with a slash, and so with an empty
part before others, start anew from the root. -/
def followedBy (path : Path) : List Text → Path
  | [] :: part :: rest => ofText (['/'].intercalate ([] :: part :: rest))
  | rest => { path with names := path.names ++ rest.filter (!stays ·) }

/-- The path and the paths of all directories above it, the nearest one first. -/
def withParents (path : Path) : List Path :=
  (List.range (path.names.length + 1)).map fun n =>
    { path with names := path.names.take (path.names.length - n) }

/-- The last name of the path. -/
def name (path : Path) : Text := path.names.getLast?.getD []

/-- The end of the last name from its last point on, if text stands on both sides of that point. -/
def suffix (path : Path) : Text :=
  let tail := (path.name.reverse.takeWhile (· != '.')).reverse
  let stem := path.name.length - tail.length - 1
  if tail.isEmpty || stem == 0 || tail.length == path.name.length then [] else '.' :: tail

end Path

end ChapterLayout
