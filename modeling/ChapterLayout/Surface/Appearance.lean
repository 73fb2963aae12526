import ChapterLayout.Style.Kind

/-! # Appearances

How text of a highlight group looks on a terminal. Every group has a fixed appearance, and the
groups of excerpts take theirs from the name of a colour. Where two groups meet,
`Appearance.laidOver` lays one appearance over the other. How a terminal is told to show text in an
appearance is up to a `Styler`. -/

namespace ChapterLayout

/-- A colour of the terminal. -/
inductive Color where
  | black
  | red
  | green
  | yellow
  | blue
  | magenta
  | cyan
  | white
  deriving DecidableEq, Repr

namespace Color

/-- The name of a colour. -/
def name : Color → Text
  | black => "black".toList
  | red => "red".toList
  | green => "green".toList
  | yellow => "yellow".toList
  | blue => "blue".toList
  | magenta => "magenta".toList
  | cyan => "cyan".toList
  | white => "white".toList

/-- All colours, in their usual order. -/
def all : List Color := [black, red, green, yellow, blue, magenta, cyan, white]

/-- The colour of the given name. -/
def ofName? (s : Text) : Option Color := all.find? (·.name == s)

end Color

/-- The display attributes of a piece of text. An attribute that is not set leaves the terminal's
own. -/
structure Appearance where
  foreground : Option Color := none
  background : Option Color := none
  bold : Bool := false
  dim : Bool := false
  underline : Bool := false
  italic : Bool := false
  reverse : Bool := false
  strikethrough : Bool := false
  deriving DecidableEq, Repr

namespace Appearance

/-- No attribute at all. -/
def bare : Appearance := {}

/-- The appearance `top` laid over `base`: what `top` sets wins. -/
def laidOver (top base : Appearance) : Appearance :=
  { foreground := top.foreground.or base.foreground
    background := top.background.or base.background
    bold := base.bold || top.bold
    dim := base.dim || top.dim
    underline := base.underline || top.underline
    italic := base.italic || top.italic
    reverse := base.reverse || top.reverse
    strikethrough := base.strikethrough || top.strikethrough }

/-- The appearances of the fixed groups. -/
def byGroup : List (Group × Appearance) :=
  [(StyleKind.h1.value, { foreground := some .magenta, bold := true }),
    (StyleKind.h2.value, { foreground := some .blue, bold := true }),
    (StyleKind.h3.value, { foreground := some .cyan, bold := true }),
    (StyleKind.h4.value, { bold := true }),
    (StyleKind.h5.value, { bold := true }),
    (StyleKind.h6.value, { bold := true }),
    (StyleKind.bold.value, { bold := true }),
    (StyleKind.italic.value, { italic := true }),
    (Group.underline, { underline := true }),
    (StyleKind.strikethrough.value, { strikethrough := true }),
    (Group.code, { foreground := some .green }),
    (StyleKind.mark.value, { reverse := true }),
    (StyleKind.quote.value, { dim := true }),
    (Group.listItem, { foreground := some .cyan }),
    (Group.title, { bold := true, underline := true }),
    (Group.rule, { dim := true }),
    (Group.image, { foreground := some .yellow }),
    (Group.noteIndicator, { foreground := some .yellow, bold := true })]

/-- The appearance of a group. The group of an excerpt has the colour of its name for background,
or reverse video if there is no such colour. Any other unknown group looks bare. -/
def ofGroup (group : Group) : Appearance :=
  if Group.excerptStart.isPrefixOf group then
    match Color.ofName? (group.drop Group.excerptStart.length) with
    | some color => { background := some color, foreground := some .black }
    | none => { reverse := true }
  else (byGroup.lookup group).getD bare

end Appearance

/-! ## Styled text -/

/-- A function that gives a text an appearance on a terminal. Which codes it writes is left to
whoever provides it. -/
abbrev Styler := Appearance → Text → Text

/-- The text in an appearance. Empty text and a bare appearance need no codes. -/
def Styler.paint (style : Styler) (a : Appearance) (s : Text) : Text :=
  if s.isEmpty || a == .bare then s else style a s

end ChapterLayout
