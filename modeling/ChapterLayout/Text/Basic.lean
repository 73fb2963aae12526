/-! # Text as code points

Text is a list of code points, so a column of a line is a position in a list and two pieces of text
are joined by `++`. This module holds the two classes of blank characters and the ways of cutting
text at them:

* `Text.words p s` lists the maximal runs of characters outside the class `p`;
* `Text.collapse s` writes one space for every maximal run of blanks;
* `Text.squeeze s` keeps the words of `s` with one space between them;
* `Text.trim s` drops the blanks at both ends. -/

namespace ChapterLayout

/-- Text is a list of code points. -/
abbrev Text := List Char

/-- A line of text on the page. -/
abbrev Line := Text

namespace Text

/-! ## Blanks -/

/-- White space in the wide sense: the ASCII controls from tab to carriage return, the four
separators before the space, and every space of the other scripts. -/
def isBlank (c : Char) : Bool :=
  let n := c.toNat
  (0x09 ≤ n && n ≤ 0x0D) || (0x1C ≤ n && n ≤ 0x20) || n == 0x85 || n == 0xA0 || n == 0x1680 ||
    (0x2000 ≤ n && n ≤ 0x200A) || n == 0x2028 || n == 0x2029 || n == 0x202F || n == 0x205F ||
    n == 0x3000

/-- The blanks at which flow text is cut into words: space, tab, line feed, carriage return, form
feed and vertical tab. Other spaces, such as the no-break space, belong to their word. -/
def isFlowBlank (c : Char) : Bool :=
  c == ' ' || (0x09 ≤ c.toNat && c.toNat ≤ 0x0D)

/-- The plain space is the only character that separates the words of a finished line. -/
def isSpace (c : Char) : Bool := c == ' '

/-! ## Cutting -/

/-- The maximal runs of characters outside the class `p`, in order. -/
def words (p : Char → Bool) : Text → List Text
  | [] => []
  | c :: s =>
    if p c then words p s
    else match s with
      | [] => [[c]]
      | d :: _ =>
        if p d then [c] :: words p s
        else match words p s with
          | [] => [[c]]
          | w :: ws => (c :: w) :: ws

/-- The text without the leading characters of class `p`. -/
def trimLeft (p : Char → Bool) (s : Text) : Text := s.dropWhile p

/-- The text without the trailing characters of class `p`. -/
def trimRight (p : Char → Bool) (s : Text) : Text := (s.reverse.dropWhile p).reverse

/-- The text without the blanks at both ends. -/
def trim (s : Text) : Text := trimRight isBlank (trimLeft isBlank s)

/-- Whether the text holds no visible character. -/
def isAllBlank (s : Text) : Bool := s.all isBlank

/-- The words of the text with one space between them. -/
def squeeze (s : Text) : Text := [' '].intercalate (words isBlank s)

/-- The text with every maximal run of blanks replaced by one space. -/
def collapse : Text → Text
  | [] => []
  | c :: s => if isBlank c then ' ' :: collapse (s.dropWhile isBlank) else c :: collapse s
termination_by s => s.length
decreasing_by
  · exact Nat.lt_succ_of_le (List.dropWhile_sublist _).length_le
  · exact Nat.lt_succ_self _

/-- The text before and after the first occurrence of `needle`, if there is one. -/
def splitAtFirst (needle : Text) : Text → Option (Text × Text)
  | [] => if needle.isEmpty then some ([], []) else none
  | c :: s =>
    if needle.isPrefixOf (c :: s) then some ([], (c :: s).drop needle.length)
    else (splitAtFirst needle s).map fun (before, after) => (c :: before, after)

/-- The pieces between the occurrences of the character `sep`; one more than there are of them. -/
def splitOn (sep : Char) : Text → List Text
  | [] => [[]]
  | c :: s =>
    if c == sep then [] :: splitOn sep s
    else match splitOn sep s with
      | [] => [[c]]
      | piece :: pieces => (c :: piece) :: pieces

/-- The text with every line break, of whatever form, written as a line feed. -/
def unifyNewlines : Text → Text
  | [] => []
  | '\r' :: '\n' :: s => '\n' :: unifyNewlines s
  | '\r' :: s => '\n' :: unifyNewlines s
  | c :: s => c :: unifyNewlines s

/-- The lines joined by line feeds. -/
def joinLines (lines : List Line) : Text := ['\n'].intercalate lines

/-! ## Numbers and repetition -/

/-- A natural number in decimal. -/
def ofNat (n : Nat) : Text := Nat.toDigits 10 n

/-- An integer in decimal, with a sign only if it is negative. -/
def ofInt (i : Int) : Text :=
  if i < 0 then '-' :: ofNat i.natAbs else ofNat i.natAbs

/-- `count` spaces; none if the count is not positive. -/
def spaces (count : Int) : Text := List.replicate count.toNat ' '

/-- Whether `s` starts with `start`. -/
def startsWith (s start : Text) : Bool := start.isPrefixOf s

end Text

end ChapterLayout
