import ChapterLayout.Text.Basic
import ChapterLayout.Number.Binary64

/-! # The shortest decimal text of a binary64 number

The text of a finite number has the fewest digits that read back as the same number, and of those
the nearest to it. For one digit, two digits and so on, the two neighbours of the number on the grid
of that many digits are tried; the first grid with a neighbour in the rounding interval of the
number gives the digits.

Numbers from `10 ^ -4` up to `10 ^ 16` are written positionally and always with a fraction, the
others with an exponent of at least two digits. -/

namespace ChapterLayout.Binary64

/-- The decimal digits of a positive number: the number is near `digits · 10 ^ exponent`. -/
structure Digits where
  digits : Nat
  exponent : Int

/-- The quotient `num / (den · 10 ^ e)` as a pair of natural numbers. -/
def shiftDecimal (num den : Nat) (e : Int) : Nat × Nat :=
  if 0 ≤ e then (num, den * Nat.pow 10 e.toNat) else (num * Nat.pow 10 (-e).toNat, den)

/-- The number of decimal digits before the point of `num / den`; zero or negative for a number
below one, by the zeros after its point. -/
def decimalPlaces (num den : Nat) : Int :=
  if den ≤ num then ((Nat.toDigits 10 (num / den)).length : Int)
  else
    -- `den / num` rounded up to a power of ten
    1 - ((Nat.toDigits 10 ((den + num - 1) / num - 1)).length : Int)

/-- Whether `c · 10 ^ e` rounds to `significand · 2 ^ exponent`. -/
def readsBack (significand : Nat) (exponent : Int) (c : Nat) (e : Int) : Bool :=
  let candidate :=
    if 0 ≤ e then round false (c * Nat.pow 10 e.toNat) 1
    else round false c (Nat.pow 10 (-e).toNat)
  candidate == .finite false significand exponent

/-- The digits on the first of the grids of `places`, `places + 1`, … digits that holds a neighbour
which reads back; the grids tried number `tries`. -/
def searchDigits (significand : Nat) (exponent : Int) (num den : Nat) (top : Int) :
    (tries places : Nat) → Option Digits
  | 0, _ => none
  | tries + 1, places =>
    let e := top - places
    let (n, d) := shiftDecimal num den e
    let below := n / d
    let above := below + 1
    let lower := below != 0 && readsBack significand exponent below e
    let upper := readsBack significand exponent above e
    -- Twice the distance to the lower neighbour, against the distance between the neighbours.
    let twice := 2 * (n % d)
    if lower && (!upper || twice < d || (twice == d && below % 2 == 0)) then some ⟨below, e⟩
    else if upper then some ⟨above, e⟩
    else searchDigits significand exponent num den top tries (places + 1)

/-- The digits without their trailing zeros, of which there are at most `tries`. -/
def Digits.strip : (tries : Nat) → Digits → Digits
  | 0, d => d
  | tries + 1, d =>
    if d.digits % 10 == 0 && d.digits != 0 then Digits.strip tries ⟨d.digits / 10, d.exponent + 1⟩
    else d

/-- The fewest digits that read back as a positive finite number. Seventeen are always enough. -/
def shortestDigits (significand : Nat) (exponent : Int) : Digits :=
  let (num, den) := magnitude significand exponent
  match searchDigits significand exponent num den (decimalPlaces num den) 17 1 with
  | some d => d.strip 17
  | none => ⟨significand, 0⟩

/-- An exponent with its sign and at least two digits. -/
def exponentText (e : Int) : Text :=
  let ds := Text.ofNat e.natAbs
  (if e < 0 then '-' else '+') :: (if ds.length < 2 then '0' :: ds else ds)

/-- The text of a positive number with the given digits. -/
def Digits.text (d : Digits) : Text :=
  let ds := Text.ofNat d.digits
  let point := d.exponent + ds.length
  if -4 < point ∧ point ≤ 16 then
    if point ≤ 0 then "0.".toList ++ List.replicate (-point).toNat '0' ++ ds
    else if ds.length ≤ point then
      ds ++ List.replicate (point - ds.length).toNat '0' ++ ".0".toList
    else ds.take point.toNat ++ ['.'] ++ ds.drop point.toNat
  else
    let mantissa := match ds with
      | c :: d :: rest => c :: '.' :: d :: rest
      | ds => ds
    mantissa ++ ['e'] ++ exponentText (point - 1)

/-- The text of a number. -/
def text : Binary64 → Text
  | .nan => "nan".toList
  | .infinite negative => if negative then "-inf".toList else "inf".toList
  | .finite negative m e =>
    let body := if m = 0 then "0.0".toList else (shortestDigits m e).text
    if negative then '-' :: body else body

end ChapterLayout.Binary64
