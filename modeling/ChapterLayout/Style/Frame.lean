import ChapterLayout.Markup.Attribute
import ChapterLayout.Style.Kind

/-! # Style frames

An open tag contributes style frames: its own style or its link first, and then one frame for every
class that the class table maps to a group. All frames of a tag carry its serial number.
`Frame.forTag` lists them. -/

namespace ChapterLayout

/-- The groups that classes are mapped to. -/
abbrev ClassStyles := List (Text × Group)

/-- What a style frame applies. -/
inductive Mark where
  /-- A style with a group of its own. -/
  | style (kind : StyleKind)
  /-- A link, with its target if it has one. -/
  | link (href : Option Text)
  /-- A mapped class with its group. -/
  | classGroup (group : Group)
  deriving DecidableEq, Repr

namespace Mark

/-- The kind of style the mark applies. -/
def kind : Mark → StyleKind
  | style kind => kind
  | link _ => .link
  | classGroup _ => .cssClass

/-- The target of a link. -/
def href? : Mark → Option Text
  | link href => href
  | _ => none

/-- The group of a mapped class. -/
def classGroup? : Mark → Option Group
  | classGroup group => some group
  | _ => none

end Mark

/-- A style that is in force. -/
structure Frame where
  /-- The tag that applies it. -/
  tag : Text
  mark : Mark
  /-- The number of the tag; it is shared by all frames of the tag. -/
  serial : Nat
  deriving DecidableEq, Repr

namespace Frame

/-- The classes of a tag. -/
def classes (attributes : List Attribute) : List Text :=
  Text.words Text.isBlank ((Attribute.find? attributes "class".toList).getD [])

/-- The mark a tag applies by its name, if it applies one. -/
def ownMark? (name : Text) (attributes : List Attribute) : Option Mark :=
  if name == ['a'] then some (.link (Attribute.nonempty? attributes "href".toList))
  else (StyleKind.ofTag? name).map .style

/-- The marks of a tag in order. -/
def marks (name : Text) (attributes : List Attribute) (classStyles : ClassStyles) : List Mark :=
  (ownMark? name attributes).toList ++
    ((classes attributes).filterMap (List.lookup · classStyles)).map .classGroup

/-- The frames that the opening tag with the given serial number contributes. -/
def forTag (name : Text) (attributes : List Attribute) (serial : Nat) (classStyles : ClassStyles) :
    List Frame :=
  (marks name attributes classStyles).map (⟨name, ·, serial⟩)

/-- The classes of a tag that are mapped to no group. -/
def unmappedClasses (attributes : List Attribute) (classStyles : ClassStyles) : List Text :=
  (classes attributes).filter fun name => (classStyles.lookup name).isNone

end Frame

end ChapterLayout
