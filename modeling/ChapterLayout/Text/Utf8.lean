import ChapterLayout.Text.Basic

/-! # UTF-8

Bytes to text. `Utf8.read` reads a list of bytes from left to right and yields one item for every
well-formed sequence, namely its character, and one `none` for every longest piece that starts a
sequence and cannot be continued. `Utf8.decode?` asks for well-formed bytes throughout, and
`Utf8.decodeLossy` writes U+FFFD for every malformed piece. -/

namespace ChapterLayout.Utf8

/-- What the bytes read so far leave open. -/
inductive Pending where
  /-- Nothing: the next byte starts a sequence. -/
  | none
  /-- A sequence whose next byte lies in `lo … hi`. After it `left` more bytes follow, and `value`
  holds the bits read so far. -/
  | more (lo hi left value : Nat)

/-- The role of a byte that starts a sequence. -/
inductive Lead where
  /-- A character of its own. -/
  | ascii
  /-- The first byte of a longer sequence. -/
  | opens (pending : Pending)
  /-- No sequence starts with this byte. -/
  | invalid

/-- The role of a first byte. The ranges of the second byte leave out overlong forms, surrogates and
values beyond the last code point. -/
def lead (b : Nat) : Lead :=
  if b < 0x80 then .ascii
  else if b < 0xC2 then .invalid
  else if b < 0xE0 then .opens (.more 0x80 0xBF 0 (b - 0xC0))
  else if b == 0xE0 then .opens (.more 0xA0 0xBF 1 0)
  else if b == 0xED then .opens (.more 0x80 0x9F 1 0xD)
  else if b < 0xF0 then .opens (.more 0x80 0xBF 1 (b - 0xE0))
  else if b == 0xF0 then .opens (.more 0x90 0xBF 2 0)
  else if b < 0xF4 then .opens (.more 0x80 0xBF 2 (b - 0xF0))
  else if b == 0xF4 then .opens (.more 0x80 0x8F 2 4)
  else .invalid

/-- The characters of the bytes, with `none` for every malformed piece. -/
def read : Pending → List UInt8 → List (Option Char)
  | .none, [] => []
  | .more .., [] => [none]
  | .none, b :: bytes =>
    match lead b.toNat with
    | .ascii => some (Char.ofNat b.toNat) :: read .none bytes
    | .opens pending => read pending bytes
    | .invalid => none :: read .none bytes
  | .more lo hi left value, b :: bytes =>
    if lo ≤ b.toNat ∧ b.toNat ≤ hi then
      let value := value * 0x40 + (b.toNat - 0x80)
      match left with
      | 0 => some (Char.ofNat value) :: read .none bytes
      | left + 1 => read (.more 0x80 0xBF left value) bytes
    else
      none :: match lead b.toNat with
        | .ascii => some (Char.ofNat b.toNat) :: read .none bytes
        | .opens pending => read pending bytes
        | .invalid => none :: read .none bytes

/-- The text of the bytes, with U+FFFD for every malformed piece. -/
def decodeLossy (bytes : List UInt8) : Text :=
  (read .none bytes).map (·.getD (Char.ofNat 0xFFFD))

/-- The text of the bytes, if they are well formed throughout. -/
def decode? (bytes : List UInt8) : Option Text := (read .none bytes).mapM id

/-- The number of bytes of a character. -/
def charSize (c : Char) : Nat :=
  if c.toNat < 0x80 then 1 else if c.toNat < 0x800 then 2 else if c.toNat < 0x10000 then 3 else 4

/-- The number of bytes of a text. -/
def size (s : Text) : Nat := s.foldr (fun c n => charSize c + n) 0

end ChapterLayout.Utf8
