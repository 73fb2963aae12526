import ChapterLayout.Markup.Token

/-! # The roles of tags

What a tag does to the block structure. Tags that no role is listed for are inline. -/

namespace ChapterLayout

/-- The part a tag plays in the block structure. -/
inductive TagRole where
  /-- An element whose content is not markup. -/
  | raw
  /-- A table. -/
  | table
  /-- A section, row or cell of a table. -/
  | tablePart
  /-- The head of the document. -/
  | head
  /-- The title of the document. -/
  | title
  | list (ordered : Bool)
  | item
  | quote
  /-- Text that is laid out line by line as it stands. -/
  | pre
  /-- Code within a line. -/
  | code
  /-- A term's definition. -/
  | description
  | heading (level : Nat)
  | paragraph
  /-- Any other element that stands on lines of its own. -/
  | block
  /-- An element within a line. -/
  | inline
  deriving DecidableEq, Repr

namespace TagRole

/-- The roles by tag name. -/
def byName : List (Text × TagRole) :=
  [("script", raw), ("style", raw), ("table", table), ("thead", tablePart), ("tbody", tablePart),
    ("tfoot", tablePart), ("tr", tablePart), ("th", tablePart), ("td", tablePart), ("head", head),
    ("title", title), ("ul", list false), ("ol", list true), ("li", item), ("blockquote", quote),
    ("pre", pre), ("code", code), ("dd", description), ("h1", heading 1), ("h2", heading 2),
    ("h3", heading 3), ("h4", heading 4), ("h5", heading 5), ("h6", heading 6), ("p", paragraph),
    ("div", block), ("section", block), ("article", block), ("aside", block), ("header", block),
    ("footer", block), ("nav", block), ("figure", block), ("figcaption", block), ("br", block),
    ("hr", block), ("dl", block), ("dt", block)].map fun (name, role) => (name.toList, role)

/-- The role of a tag. -/
def ofName (name : Text) : TagRole := (byName.lookup name).getD inline

/-- Tags that stand on lines of their own and so break the line even without content. -/
def breaksLine (name : Text) : Bool :=
  match ofName name with
  | table => true
  | tablePart => name == "tr".toList || name == "th".toList || name == "td".toList
  | list _ => true
  | item => true
  | quote => true
  | pre => true
  | description => true
  | heading _ => true
  | paragraph => true
  | block => true
  | _ => false

end TagRole

end ChapterLayout
