import ChapterLayout.Markup.Attribute

/-! # Markup tokens

What a chapter is made of when it is read from left to right: tags and the text between them.
`Token.ofTag` builds the token of a tag from what stands between its angle brackets. -/

namespace ChapterLayout

/-- A tag or a piece of text. -/
inductive Token where
  /-- A tag that opens an element. -/
  | opening (name : Text) (attributes : List Attribute)
  /-- A tag that closes an element. -/
  | closing (name : Text)
  /-- An element that is closed in its own tag, or never has content. -/
  | empty (name : Text) (attributes : List Attribute)
  /-- Text with its references decoded. -/
  | text (s : Text)
  deriving DecidableEq, Repr

namespace Token

/-- Elements that never have content or a closing tag. -/
def voidNames : List Text :=
  ["area", "base", "br", "col", "hr", "img", "input", "link", "meta", "source", "wbr"].map
    String.toList

/-- Elements whose content is not markup. -/
def rawNames : List Text := ["script", "style"].map String.toList

/-- Characters of a tag name after its first letter. -/
def isTagChar (c : Char) : Bool := Text.isWordChar c || c == ':' || c == '.' || c == '-'

/-- The token of a tag from the text between its angle brackets, which starts with a letter, or with
a slash and a letter. -/
def ofTag (asciiOnly : Bool) : Text → Token
  | '/' :: s => .closing (Text.lower (s.takeWhile isTagChar))
  | s =>
    let name := Text.lower (s.takeWhile isTagChar)
    let rest := s.dropWhile isTagChar
    let trimmed := Text.trimRight Text.isBlank rest
    if trimmed.getLast? = some '/' then .empty name (Attribute.read asciiOnly trimmed.dropLast)
    else if voidNames.contains name then .empty name (Attribute.read asciiOnly rest)
    else .opening name (Attribute.read asciiOnly rest)

/-- The name of the element with raw content that the token opens, if it opens one. -/
def rawName? : Token → Option Text
  | .opening name _ => if rawNames.contains name then some name else none
  | _ => none

end Token

end ChapterLayout
