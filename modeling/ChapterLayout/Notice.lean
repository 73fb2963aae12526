import ChapterLayout.Text.Quoted

/-! # Notices

What a run reports beside its result, for whoever wants to follow it. Every notice has a level, the
name of the channel it is reported on, and a text. -/

namespace ChapterLayout

/-- How much a notice matters. -/
inductive NoticeLevel where
  | debug
  | info
  deriving DecidableEq, Repr

/-- The name of a level. -/
def NoticeLevel.name : NoticeLevel → Text
  | debug => "DEBUG".toList
  | info => "INFO".toList

/-- A report on one step of a run. -/
inductive Notice where
  /-- A class is mapped to no highlight group. -/
  | unmappedClass (name : Text)
  /-- A closing tag has no open partner. -/
  | unmatchedClosing (name : Text)
  /-- A table stands in a cell of another one. -/
  | nestedTable
  /-- Elements are open at the end of the chapter, and perhaps blocks as well. -/
  | unclosed (elements : Nat) (openBlocks : Bool)
  /-- A chapter of the given number of characters was read from a file. -/
  | read (characters : Nat) (path : Text)
  /-- A chapter was laid out. -/
  | laidOut (lines highlights links : Nat) (maxWidth : Int)
  /-- Settings were read from a file. -/
  | loaded (path : Text)
  /-- A settings file was passed over, for the given reason. -/
  | skipped (path reason : Text)
  deriving DecidableEq, Repr

namespace Notice

/-- The level of a notice. -/
def level : Notice → NoticeLevel
  | laidOut .. => .info
  | _ => .debug

/-- The name of the channel a notice is reported on. -/
def channel : Notice → Text
  | unmappedClass _ => "ink_layout.tracker".toList
  | unmatchedClosing _ => "ink_layout.tracker".toList
  | nestedTable => "ink_layout.layout".toList
  | unclosed .. => "ink_layout.layout".toList
  | read .. => "ink_layout.renderer".toList
  | laidOut .. => "ink_layout.renderer".toList
  | loaded _ => "ink_layout.config".toList
  | skipped .. => "ink_layout.config".toList

/-- The text of a notice. -/
def message : Notice → Text
  | unmappedClass name =>
    "No highlight group for class ".toList ++ Text.quoted name ++ ", skipping".toList
  | unmatchedClosing name => "Ignoring unmatched closing tag </".toList ++ name ++ ['>']
  | nestedTable => "Nested table flattened into the enclosing table".toList
  | unclosed elements openBlocks =>
    "Chapter ended with ".toList ++ Text.ofNat elements ++
      " unclosed elements (open blocks: ".toList ++
      (if openBlocks then "True".toList else "False".toList) ++ [')']
  | read characters path =>
    "Read ".toList ++ Text.ofNat characters ++ " characters from ".toList ++ path
  | laidOut lines highlights links maxWidth =>
    "Rendered ".toList ++ Text.ofNat lines ++ " lines, ".toList ++ Text.ofNat highlights ++
      " highlights, ".toList ++ Text.ofNat links ++ " links at width ".toList ++
      Text.ofInt maxWidth
  | loaded path => "Loaded configuration from ".toList ++ path
  | skipped path reason =>
    "Skipping unreadable config file ".toList ++ path ++ ": ".toList ++ reason

end Notice

end ChapterLayout
