import ChapterLayout.FileTree.Path
import ChapterLayout.Text.Quoted
import ChapterLayout.Text.Utf8

/-! # A tree of files

Directories, files, links and pipes under the names that lead to them, together with the directory
in which relative paths start. `Tree.find` looks a path up and follows the links on its way;
`Tree.resolve` writes a path without links and double points. -/

namespace ChapterLayout

/-- What a path leads to. -/
inductive Entry where
  | file (bytes : List UInt8)
  | directory
  /-- A link to another path. -/
  | link (target : Text)
  | pipe
  deriving DecidableEq, Repr

/-- Why a path leads nowhere. -/
inductive SystemError where
  | notFound
  | notADirectory
  | isADirectory
  | nameTooLong
  | tooManyLinks
  /-- The path holds the character that ends a path. -/
  | nullCharacter
  deriving DecidableEq, Repr

namespace SystemError

/-- A numbered error's text for a path. -/
def numbered (number : Nat) (reason : String) (path : Path) : Text :=
  "[Errno ".toList ++ Text.ofNat number ++ "] ".toList ++ reason.toList ++ ": ".toList ++
    Text.quoted path.text

/-- The error's text for a path. -/
def message : SystemError → Path → Text
  | notFound => numbered 2 "No such file or directory"
  | notADirectory => numbered 20 "Not a directory"
  | isADirectory => numbered 21 "Is a directory"
  | nameTooLong => numbered 36 "File name too long"
  | tooManyLinks => numbered 40 "Too many levels of symbolic links"
  | nullCharacter => fun _ => "embedded null byte".toList

end SystemError

/-- A tree of files. -/
structure Tree where
  /-- What stands under the names from the root. -/
  entries : List (List Text × Entry) := []
  /-- The names of the directory in which relative paths start. -/
  workdir : List Text := []
  /-- The names of the home directory, if it is known. -/
  home : Option (List Text) := none

namespace Tree

/-! ## Building -/

/-- The tree with directories under all the given names from the root, as far as nothing else stands
there. -/
def addDirectory (tree : Tree) (names : List Text) : Tree :=
  (List.range names.length).foldl (fun tree n =>
    let names := names.take (n + 1)
    if (tree.entries.lookup names).isSome then tree
    else { tree with entries := tree.entries ++ [(names, .directory)] }) tree

/-- The tree with one more entry and the directories that lead to it. -/
def add (tree : Tree) (names : List Text) (entry : Entry) : Tree :=
  let tree := tree.addDirectory names.dropLast
  { tree with entries := (names, entry) :: tree.entries }

/-- The names of a path from the root of the tree. -/
def namesOf (tree : Tree) (path : Path) : List Text :=
  if path.isAbsolute then path.names else tree.workdir ++ path.names

/-! ## Looking up -/

/-- The entry under the given names from the root. -/
def entryAt? (tree : Tree) (names : List Text) : Option Entry :=
  if names.isEmpty then some .directory else tree.entries.lookup names

/-- The number of links followed on the way of one path. -/
def maxLinks : Nat := 40

/-- The number of bytes a name may have. -/
def maxNameSize : Nat := 255

/-- The number of bytes a path may have. -/
def maxPathSize : Nat := 4095

/-- The names that the target of a link leads along. A slash at its end asks for a directory, just
as a point after it does. -/
def stepsOf (target : Text) : List Text :=
  (Path.parts target).filter (!·.isEmpty) ++
    (if target.getLast? == some '/' then [Path.here] else [])

/-- The entry that the names `todo` lead to from the directory `here`. The last name is followed if
it is a link and `follow` holds. -/
def walk (tree : Tree) (follow : Bool) (links : Nat) (here todo : List Text) :
    Except SystemError Entry :=
  match todo with
  | [] =>
    match tree.entryAt? here with
    | some entry => .ok entry
    | none => .error .notFound
  | name :: todo =>
    if tree.entryAt? here ≠ some .directory then .error .notADirectory
    else if name == Path.here then tree.walk follow links here todo
    else if name == Path.above then tree.walk follow links here.dropLast todo
    else if maxNameSize < Utf8.size name then .error .nameTooLong
    else
      match tree.entryAt? (here ++ [name]) with
      | none => .error .notFound
      | some (.link target) =>
        if todo.isEmpty && !follow then .ok (.link target)
        else
          match links with
          | 0 => .error .tooManyLinks
          | links + 1 =>
            let here := if (Path.ofText target).isAbsolute then [] else here
            tree.walk follow links here (stepsOf target ++ todo)
      | some _ => tree.walk follow links (here ++ [name]) todo
termination_by (links, todo.length)

/-- What a path leads to. A link at its end is followed only if `follow` holds. -/
def find (tree : Tree) (path : Path) (follow : Bool := true) : Except SystemError Entry :=
  if path.text.contains (Char.ofNat 0) then .error .nullCharacter
  else if maxPathSize < Utf8.size path.text then .error .nameTooLong
  else tree.walk follow maxLinks (if path.isAbsolute then [] else tree.workdir) path.names

/-- Whether a path leads to a link. -/
def isLink (tree : Tree) (path : Path) : Bool :=
  match tree.find path false with
  | .ok (.link _) => true
  | _ => false

/-! ## Resolving -/

/-- Why a path cannot be resolved. -/
inductive ResolveError where
  /-- A part of the path leads nowhere. -/
  | system (e : SystemError) (path : Path)
  /-- Links lead in a circle. -/
  | circle (path : Path)
  deriving DecidableEq, Repr

/-- Why the link at a path, which leads in a circle, cannot be followed. -/
def circleError (tree : Tree) (link : Path) : ResolveError :=
  match tree.find link with
  | .error .tooManyLinks | .ok _ => .circle link
  | .error e => .system e link

/-- The path one directory up: without its last name, or with another double point if nothing else
is left. -/
def goUp (path : Path) : Path :=
  match path.names.getLast? with
  | none => if path.isAbsolute then path else { path with names := [Path.above] }
  | some name => if name == Path.above then path.child Path.above else path.parent

/-- The path `done` followed by the parts `todo`, where links are replaced by their targets and
double points by the directory above, and whether all of it could be resolved. If `strict` holds,
every name has to lead somewhere. The links `pending` are being resolved, so meeting one of them
again means that they lead in a circle; what is left to be resolved then stays as it is. -/
def resolveFrom (tree : Tree) (strict : Bool) (depth : Nat) (pending : List Path) (done : Path)
    (todo : List Text) : Except ResolveError (Path × Bool) :=
  match todo with
  | [] => .ok (done, true)
  | name :: todo =>
    if Path.stays name then tree.resolveFrom strict depth pending done todo
    else if name == Path.above then tree.resolveFrom strict depth pending (goUp done) todo
    else
      let next := done.child name
      match tree.find next false with
      | .error e =>
        if strict || e == .nullCharacter then .error (.system e next)
        else tree.resolveFrom strict depth pending next todo
      | .ok (.link target) =>
        if pending.contains next then
          if strict then .error (tree.circleError next)
          else .ok (next.followedBy todo, false)
        else
          match depth with
          | 0 => .error (.circle next)
          | depth + 1 => do
            let start := if (Path.ofText target).isAbsolute then ⟨['/'], []⟩ else done
            let (done, complete) ←
              tree.resolveFrom strict depth (next :: pending) start (Path.parts target)
            if complete then tree.resolveFrom strict (depth + 1) pending done todo
            else return (done.followedBy todo, false)
      | .ok _ => tree.resolveFrom strict depth pending next todo
termination_by (depth, todo.length)

/-- A bound on how deep links can be nested in each other without leading in a circle: every link
can be reached from every directory above the one in which relative paths start. -/
def maxDepth (tree : Tree) : Nat := (tree.entries.length + 1) * (tree.workdir.length + 2)

/-- The names without double points, where `done` comes before them. -/
def dropAbove (done : List Text) : List Text → List Text
  | [] => done
  | name :: names =>
    if name == Path.above then dropAbove done.dropLast names else dropAbove (done ++ [name]) names

/-- The absolute path without links and double points that leads to the same entry. If `strict`
holds, every name on the way has to lead somewhere. -/
def resolve (tree : Tree) (path : Path) (strict : Bool) : Except ResolveError Path := do
  let start := if path.isAbsolute then ⟨['/'], []⟩ else ⟨[], []⟩
  let (done, _) ← tree.resolveFrom strict tree.maxDepth [] start path.names
  let root := if done.isAbsolute then done.root else ['/']
  let resolved : Path := ⟨root, dropAbove [] (tree.namesOf done)⟩
  match tree.find resolved with
  | .error .tooManyLinks => throw (.circle resolved)
  | .error .nullCharacter => throw (.system .nullCharacter resolved)
  | _ => return resolved

end Tree

end ChapterLayout
