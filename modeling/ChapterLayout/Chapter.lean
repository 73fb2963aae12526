import ChapterLayout.FileTree.Access
import ChapterLayout.Flow.Run
import ChapterLayout.Markup.Segment

/-! # Chapters

From the markup of a chapter to its page. `Chapter.render` lays out markup: its tokens are laid out
one after the other, the words of full lines are spread if the settings ask for it, and every record
is moved into its line. `Tree.renderFile` does the same for a file. -/

namespace ChapterLayout

/-- A chapter laid out, and what was noticed on the way. -/
structure Rendering where
  page : Page
  notices : List Notice
  deriving DecidableEq, Repr

namespace Chapter

/-- The notice on a page that is complete. -/
def laidOut (settings : Settings) (page : Page) : Notice :=
  .laidOut page.lines.length page.highlights.length page.links.length settings.maxWidth

/-- The page with the words of full lines spread, if the settings ask for it. -/
def justify (settings : Settings) (page : Page) : Except LimitError Page :=
  if settings.justify then page.justify settings.maxWidth settings.threshold else .ok page

/-- Lays out the markup of a chapter. -/
def render (settings : Settings) (markup : Text) : Except LimitError Rendering := do
  let flow ← Flow.run? settings (Token.scan markup settings.asciiEntities)
  let page := (← justify settings flow.page).clamp
  return ⟨page, flow.notices ++ [laidOut settings page]⟩

end Chapter

/-- Why a file cannot be taken as a chapter. -/
inductive UnreadableReason where
  | sizeLimit (e : SizeLimitError)
  | access (e : AccessError)
  deriving DecidableEq, Repr

/-- The reason in words. -/
def UnreadableReason.message : UnreadableReason → Text
  | sizeLimit e => e.message
  | access e => e.message

/-- Why a chapter file cannot be laid out. -/
inductive ChapterError where
  | unreadable (path : Path) (reason : UnreadableReason)
  /-- The path holds the character that ends a path. -/
  | nullCharacter
  | limit (e : LimitError)
  deriving DecidableEq, Repr

/-- The error's text. -/
def ChapterError.message : ChapterError → Text
  | unreadable path reason => path.text ++ ": ".toList ++ reason.message
  | nullCharacter => SystemError.message .nullCharacter ⟨[], []⟩
  | limit e => e.message.toList

namespace Tree

/-- The text of a regular file that is not larger than the limit. -/
def readChapter (tree : Tree) (path : Path) (maxSize : Int) : Except AccessError Text := do
  let _ ← tree.boundedSize path maxSize
  tree.readText path

/-- Lays out a chapter file. The greatest size in the environment goes before that of the
settings. -/
def renderFile (tree : Tree) (environment : Option Text) (settings : Settings) (path : Path) :
    Except ChapterError Rendering := do
  let maxSize ← (maxFileSize environment settings.maxFileSize).mapError
    fun e => .unreadable path (.sizeLimit e)
  let markup ← (tree.readChapter path maxSize).mapError fun
    | .unopened .nullCharacter _ => .nullCharacter
    | e => .unreadable path (.access e)
  let rendering ← (Chapter.render settings markup).mapError .limit
  return { rendering with notices := .read markup.length path.text :: rendering.notices }

end Tree

end ChapterLayout
