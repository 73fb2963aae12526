import ChapterLayout.Text.Basic

/-! # Inline styles

The closed set of inline styles, the highlight group each of them paints with, and the style a tag
applies by its name. Links and mapped classes have no group of their own: a link paints an
underline, and a class the group it is mapped to. -/

namespace ChapterLayout

/-- The name of a set of display attributes. -/
abbrev Group := Text

namespace Group

/-- The group of whole title lines. -/
def title : Group := "InkTitle".toList

/-- The group of code, inline and preformatted. -/
def code : Group := "InkCode".toList

/-- The group of underlined text and of links. -/
def underline : Group := "InkUnderlined".toList

/-- The group of list markers. -/
def listItem : Group := "InkListItem".toList

/-- The group of horizontal rules. -/
def rule : Group := "InkHorizontalRule".toList

/-- The group of image labels. -/
def image : Group := "Special".toList

/-- The group of the marks of excerpts that carry a note. -/
def noteIndicator : Group := "InkNoteIndicator".toList

/-- The group of padding and other plain text. -/
def plain : Group := "Normal".toList

/-- The start of the groups of excerpts, before the name of a colour. -/
def excerptStart : Text := "InkUserHighlight_".toList

/-- The group of excerpts in the given colour. -/
def excerpt (color : Text) : Group := excerptStart ++ color

end Group

/-- An inline style. -/
inductive StyleKind where
  | h1
  | h2
  | h3
  | h4
  | h5
  | h6
  | bold
  | italic
  | underline
  | strikethrough
  | code
  | mark
  | quote
  | link
  | cssClass
  deriving DecidableEq, Repr

namespace StyleKind

/-- The name of the style, which for a style with a group of its own is that group. -/
def value : StyleKind → Text
  | h1 => "InkH1".toList
  | h2 => "InkH2".toList
  | h3 => "InkH3".toList
  | h4 => "InkH4".toList
  | h5 => "InkH5".toList
  | h6 => "InkH6".toList
  | bold => "InkBold".toList
  | italic => "InkItalic".toList
  | underline => Group.underline
  | strikethrough => "InkStrikethrough".toList
  | code => Group.code
  | mark => "InkHighlight".toList
  | quote => "Comment".toList
  | link => "link".toList
  | cssClass => "css_class".toList

/-- The group the style paints with, if it has one of its own. -/
def group? : StyleKind → Option Group
  | link => none
  | cssClass => none
  | kind => some kind.value

/-- The styles applied by tag names. -/
def byTag : List (Text × StyleKind) :=
  [("h1", h1), ("h2", h2), ("h3", h3), ("h4", h4), ("h5", h5), ("h6", h6), ("b", bold),
    ("strong", bold), ("dt", bold), ("i", italic), ("em", italic), ("cite", italic),
    ("u", underline), ("ins", underline), ("s", strikethrough), ("strike", strikethrough),
    ("del", strikethrough), ("code", code), ("kbd", code), ("samp", code), ("tt", code),
    ("mark", mark), ("blockquote", quote)].map fun (name, kind) => (name.toList, kind)

/-- The style a tag applies by its name. -/
def ofTag? (name : Text) : Option StyleKind := byTag.lookup name

end StyleKind

end ChapterLayout
