/-! # Binary64 numbers

Exact arithmetic of IEEE binary64 numbers over integers. A finite number is
`± significand · 2 ^ exponent`, and every operation computes its result exactly as a quotient of
natural numbers and rounds it once, with `Binary64.round`, to the nearest number, a tie going to the
even significand.

* `Binary64.ofInt?` is the number nearest to an integer, if that is finite;
* `Binary64.ratio` is the number nearest to a quotient, and `Binary64.mul` rounds a product;
* `Binary64.floor?` and `Binary64.truncate?` are the integers next to a finite number. -/

namespace ChapterLayout

/-- A binary64 number. A finite one has `significand < 2 ^ 53` and
`-1074 ≤ exponent ≤ 971`, and a significand below `2 ^ 52` occurs only with the least exponent. -/
inductive Binary64 where
  | nan
  | infinite (negative : Bool)
  | finite (negative : Bool) (significand : Nat) (exponent : Int)
  deriving DecidableEq, Repr

namespace Binary64

/-! ## Rounding -/

/-- The natural number nearest to `num / den`, a tie going to the even one. -/
def nearest (num den : Nat) : Nat :=
  let q := num / den
  let twice := 2 * (num % den)
  if twice < den then q
  else if den < twice then q + 1
  else if q % 2 = 0 then q else q + 1

/-- The quotient `num / (den · 2 ^ e)` as a pair of natural numbers. -/
def shift (num den : Nat) (e : Int) : Nat × Nat :=
  if 0 ≤ e then (num, den * Nat.pow 2 e.toNat) else (num * Nat.pow 2 (-e).toNat, den)

/-- The exponent of the highest power of two that is at most `num / den`. -/
def floorLog2 (num den : Nat) : Int :=
  let guess := (num.log2 : Int) - den.log2
  let (n, d) := shift num den guess
  if d ≤ n then guess else guess - 1

/-- The binary64 number nearest to `± num / den`. -/
def round (negative : Bool) (num den : Nat) : Binary64 :=
  if num = 0 then .finite negative 0 (-1074)
  else
    let exponent := max (-1074) (floorLog2 num den - 52)
    let (n, d) := shift num den exponent
    let significand := nearest n d
    let (significand, exponent) :=
      if significand = 0x20000000000000 then (0x10000000000000, exponent + 1)
      else (significand, exponent)
    if 971 < exponent then .infinite negative else .finite negative significand exponent

/-- The magnitude of a finite number as a quotient of natural numbers. -/
def magnitude (significand : Nat) (exponent : Int) : Nat × Nat :=
  if 0 ≤ exponent then (significand * Nat.pow 2 exponent.toNat, 1)
  else (significand, Nat.pow 2 (-exponent).toNat)

/-! ## Arithmetic -/

/-- The number nearest to an integer, or nothing if the integer is out of range. -/
def ofInt? (i : Int) : Option Binary64 :=
  match round (decide (i < 0)) i.natAbs 1 with
  | .infinite _ => none
  | x => some x

/-- The number nearest to `num / den`. -/
def ratio (num den : Nat) : Binary64 := round false num den

/-- The product of two numbers. -/
def mul : Binary64 → Binary64 → Binary64
  | .nan, _ => .nan
  | _, .nan => .nan
  | .infinite s, .infinite t => .infinite (s != t)
  | .infinite s, .finite t m _ => if m = 0 then .nan else .infinite (s != t)
  | .finite s m _, .infinite t => if m = 0 then .nan else .infinite (s != t)
  | .finite s m e, .finite t n f =>
    let (num, den) := magnitude m e
    let (num', den') := magnitude n f
    round (s != t) (num * num') (den * den')

/-- The greatest integer that is not above a finite number. -/
def floor? : Binary64 → Option Int
  | .finite negative m e =>
    let (num, den) := magnitude m e
    some (Int.fdiv (if negative then -(num : Int) else num) den)
  | _ => none

/-- The integer next to a finite number on the side of zero. -/
def truncate? : Binary64 → Option Int
  | .finite negative m e =>
    let (num, den) := magnitude m e
    let q : Int := (num / den : Nat)
    some (if negative then -q else q)
  | _ => none

/-- Whether the number lies above zero and is at most one. -/
def inUnitRange : Binary64 → Bool
  | .finite negative m e =>
    let (num, den) := magnitude m e
    !negative && m != 0 && decide (num ≤ den)
  | _ => false

end Binary64

end ChapterLayout
