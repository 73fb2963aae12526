import ChapterLayout.Text.Basic
import ChapterLayout.Text.Table.Unprintable

/-! # Quoted text

A text between quotes, in one line and in visible characters, as messages show names and paths. The
quote is the apostrophe unless the text holds an apostrophe and no double quote. The quote in use
and the backslash are escaped, and a character without a visible form is written by its code point
in hexadecimal. -/

namespace ChapterLayout.Text

/-- `digits` hexadecimal digits of `n`, the lowest ones. -/
def hexDigits : (digits : Nat) → Nat → Text
  | 0, _ => []
  | digits + 1, n => hexDigits digits (n / 16) ++ [Nat.digitChar (n % 16)]

/-- One character between two quotes `quote`. -/
def quoteChar (quote c : Char) : Text :=
  let n := c.toNat
  if c == quote || c == '\\' then ['\\', c]
  else if c == '\n' then ['\\', 'n']
  else if c == '\r' then ['\\', 'r']
  else if c == '\t' then ['\\', 't']
  else if unprintable.contains n then
    if n < 0x100 then ['\\', 'x'] ++ hexDigits 2 n
    else if n < 0x10000 then ['\\', 'u'] ++ hexDigits 4 n
    else ['\\', 'U'] ++ hexDigits 8 n
  else [c]

/-- The text between quotes. -/
def quoted (s : Text) : Text :=
  let quote := if s.contains '\x27' && !s.contains '"' then '"' else '\x27'
  [quote] ++ s.flatMap (quoteChar quote) ++ [quote]

end ChapterLayout.Text
