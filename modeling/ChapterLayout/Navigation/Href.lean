import ChapterLayout.Navigation.Host
import ChapterLayout.Text.Utf8

/-! # Link targets

A link target names a document and, after a number sign, an anchor in it. `Href.anchorName?` reads
the anchor's name; percent escapes in it are decoded as UTF-8. The rest of the target is only looked
at as far as it is needed to tell where its authority ends. -/

namespace ChapterLayout

namespace Href

/-! ## Percent escapes -/

/-- The value of a hexadecimal digit. -/
def hexValue? (c : Char) : Option Nat :=
  if c.isDigit then some (c.toNat - 48)
  else if 'a' ≤ c ∧ c ≤ 'f' then some (c.toNat - 87)
  else if 'A' ≤ c ∧ c ≤ 'F' then some (c.toNat - 55)
  else none

/-- The bytes of an ASCII text with percent escapes. A percent sign that starts no escape stands for
itself. -/
def unescapeBytes : Text → List UInt8
  | '%' :: c :: d :: s =>
    match hexValue? c, hexValue? d with
    | some high, some low => UInt8.ofNat (high * 16 + low) :: unescapeBytes s
    | _, _ => 0x25 :: unescapeBytes (c :: d :: s)
  | c :: s => UInt8.ofNat c.toNat :: unescapeBytes s
  | [] => []
termination_by s => s.length

/-- Whether a character is ASCII. -/
def isAscii (c : Char) : Bool := c.toNat < 0x80

/-- The text with the percent escapes decoded, where `run`, reversed, is the run of ASCII characters
read last. Escapes in different runs are decoded on their own. -/
def unescapeAfter (run : Text) : Text → Text
  | [] => Utf8.decodeLossy (unescapeBytes run.reverse)
  | c :: s =>
    if isAscii c then unescapeAfter (c :: run) s
    else Utf8.decodeLossy (unescapeBytes run.reverse) ++ c :: unescapeAfter [] s

/-- The text with the percent escapes decoded. -/
def unescape (s : Text) : Text := unescapeAfter [] s

/-! ## The parts of a target -/

/-- Characters of a scheme. -/
def isSchemeChar (c : Char) : Bool := c.isAlphanum || c == '+' || c == '-' || c == '.'

/-- The target without its scheme, which starts with a letter. -/
def dropScheme (s : Text) : Text :=
  match Text.splitAtFirst [':'] s with
  | some (scheme, rest) =>
    if scheme.head?.any Char.isAlpha && scheme.all isSchemeChar then rest else s
  | none => s

/-- The authority of a target without a scheme, and the rest. -/
def splitAuthority (s : Text) : Text × Text :=
  match s with
  | '/' :: '/' :: s =>
    let ends (c : Char) : Bool := c == '/' || c == '?' || c == '#'
    (s.takeWhile (!ends ·), s.dropWhile (!ends ·))
  | s => ([], s)

/-- Characters that stand for a slash, question mark, number sign, at sign or colon among others. -/
def ambiguousChars : List Nat :=
  [0x2047, 0x2048, 0x2049, 0x2100, 0x2101, 0x2105, 0x2106, 0x2A74, 0xFE13, 0xFE16, 0xFE55, 0xFE56,
    0xFE5F, 0xFE6B, 0xFF03, 0xFF0F, 0xFF1A, 0xFF1F, 0xFF20]

/-- What is wrong with an authority. -/
def checkAuthority (authority : Text) : Except AuthorityError Unit := do
  if authority.contains '[' != authority.contains ']' then throw .unpairedBracket
  if authority.contains '[' then Host.checkBracketed authority
  if authority.any fun c => ambiguousChars.contains c.toNat then
    throw (.ambiguousCharacter authority)

/-- Characters that are left out of a target wherever they stand. -/
def isLeftOut (c : Char) : Bool := c == '\t' || c == '\r' || c == '\n'

/-- Characters that are left out at the start of a target: controls and the space. -/
def isLeading (c : Char) : Bool := c.toNat ≤ 0x20

/-- The target without the characters that do not count. -/
def visible (href : Text) : Text := (href.dropWhile isLeading).filter (!isLeftOut ·)

/-- The fragment of a target: what follows its first number sign. -/
def fragment (href : Text) : Except AuthorityError Text := do
  let (authority, rest) := splitAuthority (dropScheme (visible href))
  checkAuthority authority
  return match Text.splitAtFirst ['#'] rest with
    | some (_, fragment) => fragment
    | none => []

/-- The name of the anchor that a target leads to, if it names one. -/
def anchorName? (href : Text) : Except AuthorityError (Option Text) := do
  let name := unescape (← fragment href)
  return if name.isEmpty then none else some name

end Href

end ChapterLayout
