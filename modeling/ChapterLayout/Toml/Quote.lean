import ChapterLayout.Toml.Fault

/-! # Strings of a TOML document

A basic string stands between double quotes and holds escapes; a literal string stands between
apostrophes and holds every character as it is. Three quotes open and close a string that may go
over several lines. -/

namespace ChapterLayout.Toml

/-! ## Blanks -/

/-- A blank within a line. -/
def isBlank (c : Char) : Bool := c == ' ' || c == '\t'

/-- A blank or the end of a line. -/
def isBreak (c : Char) : Bool := isBlank c || c == '\n'

/-- The text without the blanks at its start. -/
def skipBlanks (s : Text) : Text := s.dropWhile isBlank

/-- Whether a character may not stand in a string or comment. Tabs may, and so may line feeds in a
string that may go over several lines. -/
def isIllegal (multiline : Bool) (c : Char) : Bool :=
  (c.toNat < 0x20 && c != '\t' && !(multiline && c == '\n')) || c.toNat == 0x7F

/-! ## Basic strings -/

/-- The value of a hexadecimal digit. -/
def hexDigit? (c : Char) : Option Nat :=
  if c.isDigit then some (c.toNat - 0x30)
  else if 'a' ≤ c ∧ c ≤ 'f' then some (c.toNat - 0x57)
  else if 'A' ≤ c ∧ c ≤ 'F' then some (c.toNat - 0x37)
  else none

/-- The character of a code point written with `count` hexadecimal digits. -/
def hexChar (count : Nat) (s : Text) : Except Fault (Text × Text) :=
  match (s.take count).mapM hexDigit? with
  | some ds =>
    if ds.length < count then fail .invalidHex s
    else
      let n := ds.foldl (fun n d => n * 16 + d) 0
      if n.isValidChar then .ok ([Char.ofNat n], s.drop count) else fail .notAScalar (s.drop count)
  | none => fail .invalidHex s

/-- The characters that an escape of one character stands for. -/
def shortEscapes : List (Char × Char) :=
  [('b', '\x08'), ('t', '\t'), ('n', '\n'), ('f', '\x0c'), ('r', '\r'), ('"', '"'), ('\\', '\\')]

/-- The text of an escape after its backslash. In a string over several lines a backslash at the end
of a line joins it to the next line that has text. -/
def escape (multiline : Bool) : Text → Except Fault (Text × Text)
  | [] => fail .invalidEscape []
  | c :: s =>
    if multiline && isBreak c then
      if c == '\n' then .ok ([], s.dropWhile isBreak)
      else
        match skipBlanks s with
        | [] => .ok ([], [])
        | d :: s =>
          if d == '\n' then .ok ([], s.dropWhile isBreak) else fail .invalidEscape (d :: s)
    else if c == 'u' then hexChar 4 s
    else if c == 'U' then hexChar 8 s
    else
      match shortEscapes.lookup c with
      | some e => .ok ([e], s)
      | none => fail .invalidEscape s

/-- The text of a basic string after its opening quote. The number `fuel` bounds the number of its
characters. -/
def basicFrom (multiline : Bool) : (fuel : Nat) → Text → Except Fault (Text × Text)
  | 0, s => fail .unterminated s
  | _, [] => fail .unterminated []
  | fuel + 1, c :: s =>
    if c == '"' && !multiline then .ok ([], s)
    else if c == '"' && Text.startsWith s ['"', '"'] then .ok ([], s.drop 2)
    else if c == '\\' then do
      let (t, s) ← escape multiline s
      let (rest, s) ← basicFrom multiline fuel s
      return (t ++ rest, s)
    else if isIllegal multiline c then fail (.illegalCharacter c) (c :: s)
    else do
      let (rest, s) ← basicFrom multiline fuel s
      return (c :: rest, s)

/-- The text of a basic string after its opening quote. -/
def basic (multiline : Bool) (s : Text) : Except Fault (Text × Text) :=
  basicFrom multiline (s.length + 1) s

/-! ## Literal strings -/

/-- The text before the first `close`, where every character has to be legal. -/
def literal (multiline : Bool) (close s : Text) : Except Fault (Text × Text) :=
  match Text.splitAtFirst close s with
  | none => fail (.expected close) []
  | some (inside, rest) =>
    match s.dropWhile (!isIllegal multiline ·) with
    | [] => .ok (inside, rest)
    | c :: t =>
      if t.length < s.length - inside.length then .ok (inside, rest)
      else fail (.invalidCharacter c) (c :: t)

/-! ## Strings over several lines -/

/-- The text followed by up to two quotes that stand before the closing ones. -/
def withQuotes (quote : Char) (found : Text) : Text → Text × Text
  | c :: d :: s =>
    if c == quote then if d == quote then (found ++ [c, d], s) else (found ++ [c], d :: s)
    else (found, c :: d :: s)
  | [c] => if c == quote then (found ++ [c], []) else (found, [c])
  | [] => (found, [])

/-- The text of a string over several lines after its three opening quotes, where a line feed at the
start does not count. -/
def multilineString (quote : Char) (s : Text) : Except Fault (Text × Text) := do
  let s := match s with
    | '\n' :: s => s
    | s => s
  let (found, s) ←
    if quote == '"' then basic true s else literal true (List.replicate 3 quote) s
  return withQuotes quote found s

/-- The string at the start of a text, whose first character is a quote. -/
def string : Text → Except Fault (Text × Text)
  | '"' :: '"' :: '"' :: s => multilineString '"' s
  | '\x27' :: '\x27' :: '\x27' :: s => multilineString '\x27' s
  | '\x27' :: s => literal false ['\x27'] s
  | s => basic false (s.drop 1)

/-! ## Keys -/

/-- Whether a character may stand in a name without quotes. -/
def isBareChar (c : Char) : Bool := c.isAlphanum || c == '-' || c == '_'

/-- Whether a character can start a name. -/
def startsName (c : Char) : Bool := isBareChar c || c == '"' || c == '\x27'

/-- One name of a key. -/
def keyName : Text → Except Fault (Text × Text)
  | '"' :: s => basic false s
  | '\x27' :: s => literal false ['\x27'] s
  | s =>
    match s.takeWhile isBareChar with
    | [] => fail .invalidKey s
    | name => .ok (name, s.drop name.length)

/-- The names of a key from the next one on. The number `fuel` bounds their number. -/
def keyFrom : (fuel : Nat) → Text → Except Fault (Key × Text)
  | 0, s => fail .invalidKey s
  | fuel + 1, s => do
    let (name, s) ← keyName s
    match skipBlanks s with
    | '.' :: s =>
      let (names, s) ← keyFrom fuel (skipBlanks s)
      return (name :: names, s)
    | s => return ([name], s)

/-- The key at the start of a text: names with points between them. -/
def key (s : Text) : Except Fault (Key × Text) := keyFrom (s.length + 1) s

/-! ## Comments -/

/-- The rest after a comment, if one stands at the start of the text. -/
def skipComment : Text → Except Fault Text
  | '#' :: s =>
    match (s.takeWhile (· != '\n')).dropWhile (!isIllegal false ·) with
    | [] => .ok (s.dropWhile (· != '\n'))
    | c :: t => .error ⟨.invalidCharacter c, c :: t ++ s.dropWhile (· != '\n')⟩
  | s => .ok s

/-- The rest after blanks, line feeds and comments. The number `fuel` bounds the number of
comments. -/
def skipCommentsFrom : (fuel : Nat) → Text → Except Fault Text
  | 0, s => .ok s
  | fuel + 1, s =>
    match s.dropWhile isBreak with
    | '#' :: s => do skipCommentsFrom fuel (← skipComment ('#' :: s))
    | s => .ok s

/-- The rest after blanks, line feeds and comments. -/
def skipComments (s : Text) : Except Fault Text := skipCommentsFrom (s.length + 1) s

end ChapterLayout.Toml
