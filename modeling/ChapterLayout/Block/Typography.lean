/-! # Typography

The units of indentation and spacing. They are signed, since a draft of the settings may hold any
integers; a count of spaces that is not positive gives no space. -/

namespace ChapterLayout

/-- The units of indentation and spacing. -/
structure Typography where
  /-- The indentation of a definition, and of a quotation together with its first bar. -/
  indentSize : Int := 4
  /-- The indentation of each level of lists. -/
  listIndent : Int := 2
  /-- The number of blank lines after a paragraph. -/
  paragraphSpacing : Int := 1
  deriving DecidableEq, Repr

end ChapterLayout
