import ChapterLayout.FileTree.Tree
import ChapterLayout.Number.Numeral
import ChapterLayout.Text.Lowercase

/-! # Chapter files

Finding and reading the file of a chapter. Files are only taken at paths without links, they have to
be regular files of a limited size with the suffix of a markup file, and bytes that are not UTF-8
are replaced when they are read. -/

namespace ChapterLayout

/-! ## Errors -/

/-- Why a path is no path of a chapter file. -/
inductive PathError where
  | link (path : Path)
  | missing (path : Path)
  | unresolvable (path : Path) (e : SystemError) (part : Path)
  | notRegular (path : Path)
  | notMarkup (path : Path)
  /-- The home directory that the path starts with is not known. -/
  | unknownHome
  /-- Links lead in a circle. -/
  | circle (path : Path)
  /-- The path holds the character that ends a path. -/
  | nullCharacter
  deriving DecidableEq, Repr

/-- The suffixes of markup files. -/
def markupSuffixes : List Text := [".html", ".htm", ".xhtml", ".xml"].map String.toList

namespace PathError

/-- The error's text. -/
def message : PathError → Text
  | link path => "Symlinks are not supported: ".toList ++ path.text
  | missing path => path.text ++ " does not exist.".toList
  | unresolvable path e part =>
    "Error resolving ".toList ++ path.text ++ ": ".toList ++ e.message part
  | notRegular path => path.text ++ " is not a regular file.".toList
  | notMarkup path =>
    path.text ++ " is not a markup file.\nSupported extensions are: ".toList ++
      ", ".toList.intercalate markupSuffixes
  | unknownHome => "Could not determine home directory.".toList
  | circle path => "Symlink loop from ".toList ++ Text.quoted path.text
  | nullCharacter => SystemError.message .nullCharacter ⟨[], []⟩

end PathError

/-- Why a file cannot be read. -/
inductive AccessError where
  | system (e : SystemError) (path : Path)
  /-- A path that cannot be taken for one to be opened. -/
  | unopened (e : SystemError) (path : Path)
  | link (path : Path)
  | notRegular (path : Path)
  | tooLarge (path : Path) (maxSize : Int)
  deriving DecidableEq, Repr

namespace AccessError

/-- The error's text. -/
def message : AccessError → Text
  | system e path => "Error accessing ".toList ++ path.text ++ ": ".toList ++ e.message path
  | unopened e path => e.message path
  | link path => "Symlinks are not supported: ".toList ++ path.text ++ ['.']
  | notRegular path => path.text ++ " is not a regular file.".toList
  | tooLarge path maxSize =>
    path.text ++ " exceeds the maximum allowed size of ".toList ++ Text.ofInt maxSize ++
      " bytes.".toList

end AccessError

/-- Why the greatest file size cannot be taken from the environment. -/
inductive SizeLimitError where
  | notANumber (s : Text)
  | notPositive (size : Int)
  deriving DecidableEq, Repr

namespace SizeLimitError

/-- The name of the variable that holds the greatest file size. -/
def variableName : Text := "INK_LAYOUT_MAX_FILE_SIZE".toList

/-- The error's text. -/
def message : SizeLimitError → Text
  | notANumber s =>
    "Invalid value for ".toList ++ SizeLimitError.variableName ++ ": ".toList ++ s ++
      " (expected positive integer)".toList
  | notPositive size =>
    SizeLimitError.variableName ++ " must be a positive integer, got ".toList ++ Text.ofInt size ++
      ['.']

end SizeLimitError

/-- The greatest file size: the one in the environment if there is one, and else the given one. -/
def maxFileSize (environment : Option Text) (otherwise : Int) : Except SizeLimitError Int :=
  match environment with
  | none => .ok otherwise
  | some s =>
    match Numeral.integer? s with
    | none => .error (.notANumber s)
    | some size => if size ≤ 0 then .error (.notPositive size) else .ok size

namespace Tree

/-! ## Paths of chapters -/

/-- The path with its home directory written out. The homes of other users are not known. -/
def expandHome (tree : Tree) (path : Path) : Except PathError Path :=
  match path.isAbsolute, path.names, tree.home with
  | false, ['~'] :: names, some home => .ok ⟨['/'], home ++ names⟩
  | false, ('~' :: _) :: _, _ => .error .unknownHome
  | _, _, _ => .ok path

/-- The absolute path of a chapter file. -/
def chapterPath (tree : Tree) (s : Text) : Except PathError Path := do
  let path ← tree.expandHome (Path.ofText s)
  if path.withParents.any tree.isLink then throw (.link path)
  match tree.resolve path true with
  | .error (.system .notFound _) => throw (.missing path)
  | .error (.system .nullCharacter _) => throw .nullCharacter
  | .error (.system e part) => throw (.unresolvable path e part)
  | .error (.circle part) => throw (.circle part)
  | .ok resolved =>
    match tree.find resolved with
    | .ok (.file _) =>
      if markupSuffixes.contains (Text.lower resolved.suffix) then return resolved
      else throw (.notMarkup resolved)
    | _ => throw (.notRegular resolved)

/-! ## Reading -/

/-- The number of bytes of a regular file. -/
def fileSize (tree : Tree) (path : Path) : Except AccessError Nat :=
  match tree.find path false with
  | .error .nullCharacter => .error (.unopened .nullCharacter path)
  | .error e => .error (.system e path)
  | .ok (.file bytes) => .ok bytes.length
  | .ok (.link _) => .error (.link path)
  | .ok _ => .error (.notRegular path)

/-- The number of bytes of a regular file that is not larger than `maxSize`. -/
def boundedSize (tree : Tree) (path : Path) (maxSize : Int) : Except AccessError Nat := do
  let size ← tree.fileSize path
  if maxSize < size then throw (.tooLarge path maxSize)
  return size

/-- The text of a file, with every line break as a line feed. A pipe has no text. -/
def readText (tree : Tree) (path : Path) : Except AccessError Text :=
  match tree.find path with
  | .error .notFound => .error (.system .notFound path)
  | .error .notADirectory => .error (.system .notADirectory path)
  | .error e => .error (.unopened e path)
  | .ok (.file bytes) => .ok (Text.unifyNewlines (Utf8.decodeLossy bytes))
  | .ok .directory => .error (.system .isADirectory path)
  | .ok _ => .ok []

end Tree

end ChapterLayout
