import Mathlib.Algebra.Order.Field.Power
import Mathlib.Data.Nat.Cast.Order.Field
import Mathlib.Data.Rat.Cast.Order
import Mathlib.Tactic.FieldSimp
import Mathlib.Tactic.Linarith
import Mathlib.Tactic.NormNum
import Mathlib.Tactic.Positivity
import Mathlib.Tactic.Ring
import ChapterLayout.Number.Binary64

/-! # Rounding to binary64

`Binary64.round` scales a quotient by a power of two, takes the nearest integer and moves a carry
into the exponent. What it does is stated about the quotient as a rational number:

* **`floorLog2_spec`** — `floorLog2` is the exponent of the highest power of two below a quotient;
* **`exists_round`** — the steps of rounding, and what each of them gives;
* **`round_spec`** — rounding gives a finite number of the format exactly below `overflow`, and an
  infinite one from there on;
* **`ofInt?_spec`** — hence an integer has a nearest number exactly if it lies below `overflow`;
* **`exists_mul_of_unit`** — a finite number times one that is at most one is finite;
* **`absolute_round_le`** — rounding adds at most `2 ^ -53` of a quotient to it, and next to nothing
  (`roundedUp`), and so do the operations (`absolute_mul_le`). -/

namespace ChapterLayout.Binary64

variable {negative : Bool} {num den n d m : Nat} {e : Int}

/-- The least magnitude that is rounded to an infinite number. It lies half a unit above the
greatest finite number. -/
def overflow : Nat := (2 ^ 54 - 1) * 2 ^ 970

/-! ## (1) Scaling -/

/-- A quotient is scaled by a power of two. -/
theorem shift_spec (num : Nat) (hden : 0 < den) (e : Int) : 0 < (shift num den e).2 ∧
    ((shift num den e).1 : ℚ) / (shift num den e).2 = num / den / 2 ^ e := by
  unfold shift
  split
  · rename_i he
    obtain ⟨k, rfl⟩ := Int.eq_ofNat_of_zero_le he
    refine ⟨Nat.mul_pos hden (Nat.pow_pos Nat.two_pos), ?_⟩
    simp [div_div]
  · rename_i he
    obtain ⟨k, hk⟩ := Int.eq_ofNat_of_zero_le (Int.neg_nonneg_of_nonpos (Int.not_le.1 he).le)
    obtain rfl : e = -k := by omega
    refine ⟨hden, ?_⟩
    simp [div_mul_eq_mul_div]

/-- The magnitude of a number is its significand, scaled by its exponent. -/
theorem magnitude_spec (m : Nat) (e : Int) : 0 < (magnitude m e).2 ∧
    ((magnitude m e).1 : ℚ) / (magnitude m e).2 = m * 2 ^ e := by
  unfold magnitude
  split
  · rename_i he
    obtain ⟨k, rfl⟩ := Int.eq_ofNat_of_zero_le he
    simp
  · rename_i he
    obtain ⟨k, hk⟩ := Int.eq_ofNat_of_zero_le (Int.neg_nonneg_of_nonpos (Int.not_le.1 he).le)
    obtain rfl : e = -k := by omega
    simp [div_eq_mul_inv]

/-- A power of two below a natural number. -/
theorem log2_bounds (hn : 0 < n) :
    (2 : ℚ) ^ (n.log2 : Int) ≤ n ∧ (n : ℚ) < 2 ^ (n.log2 + 1 : Int) := by
  constructor
  · rw [zpow_natCast]
    exact_mod_cast Nat.log2_self_le hn.ne'
  · rw [← Int.natCast_succ, zpow_natCast]
    exact_mod_cast Nat.lt_log2_self

/-- **The logarithm of a quotient**, rounded down. -/
theorem floorLog2_spec (hnum : 0 < num) (hden : 0 < den) :
    (2 : ℚ) ^ floorLog2 num den ≤ num / den ∧ (num : ℚ) / den < 2 ^ (floorLog2 num den + 1) := by
  obtain ⟨hnum_le, hnum_lt⟩ := log2_bounds hnum
  obtain ⟨hden_le, hden_lt⟩ := log2_bounds hden
  have hden' : (0 : ℚ) < den := Nat.cast_pos.2 hden
  -- The difference of the two logarithms is right or one too much.
  have habove : (num : ℚ) / den < 2 ^ ((num.log2 : Int) - den.log2 + 1) := by
    rw [div_lt_iff₀ hden']
    calc (num : ℚ) < 2 ^ (num.log2 + 1 : Int) := hnum_lt
      _ = 2 ^ ((num.log2 : Int) - den.log2 + 1) * 2 ^ (den.log2 : Int) := by
        rw [← zpow_add₀ two_ne_zero]
        congr 1
        omega
      _ ≤ 2 ^ ((num.log2 : Int) - den.log2 + 1) * den := by gcongr
  have hbelow : (2 : ℚ) ^ ((num.log2 : Int) - den.log2 - 1) ≤ num / den := by
    rw [le_div_iff₀ hden']
    calc (2 : ℚ) ^ ((num.log2 : Int) - den.log2 - 1) * den
        ≤ 2 ^ ((num.log2 : Int) - den.log2 - 1) * 2 ^ (den.log2 + 1 : Int) := by gcongr
      _ = 2 ^ (num.log2 : Int) := by
        rw [← zpow_add₀ two_ne_zero]
        congr 1
        omega
      _ ≤ num := hnum_le
  obtain ⟨hpos, hscaled⟩ := shift_spec num hden ((num.log2 : Int) - den.log2)
  have hpos' : (0 : ℚ) < (shift num den ((num.log2 : Int) - den.log2)).2 := Nat.cast_pos.2 hpos
  -- The comparison of the scaled quotient with one decides.
  have hdecides : (shift num den ((num.log2 : Int) - den.log2)).2 ≤
      (shift num den ((num.log2 : Int) - den.log2)).1 ↔
        (2 : ℚ) ^ ((num.log2 : Int) - den.log2) ≤ num / den := by
    rw [← Nat.cast_le (α := ℚ), ← one_le_div hpos', hscaled, one_le_div (by positivity)]
  unfold floorLog2
  dsimp only
  split
  · rename_i hle
    exact ⟨hdecides.1 hle, habove⟩
  · rename_i hlt
    refine ⟨hbelow, ?_⟩
    rw [Int.sub_add_cancel]
    exact lt_of_not_ge fun hle => hlt (hdecides.2 hle)

/-! ## (2) The nearest integer -/

/-- The nearest integer to a quotient lies below it or next above it, on the nearer side. -/
theorem nearest_cases (num den : Nat) :
    nearest num den = num / den ∧ 2 * (num % den) ≤ den ∨
      nearest num den = num / den + 1 ∧ den ≤ 2 * (num % den) := by
  unfold nearest
  dsimp only
  split_ifs <;> omega

/-- A quotient that is at most an integer is rounded to at most that integer. -/
theorem nearest_le (hd : 0 < d) (h : n ≤ m * d) : nearest n d ≤ m := by
  have hsum := Nat.div_add_mod n d
  have hle : n / d ≤ m := Nat.div_le_of_le_mul (Nat.mul_comm m d ▸ h)
  rcases nearest_cases n d with ⟨heq, -⟩ | ⟨heq, hrest⟩
  · exact heq.trans_le hle
  · -- The quotient is not an integer, so it is less than the bound.
    have hlt : n / d ≠ m := by
      rintro rfl
      rw [Nat.mul_comm] at h
      omega
    omega

/-- **The tie goes up to an even integer:** a quotient is rounded to at least an even integer
exactly if it is at most one half below it. -/
theorem le_nearest_iff_of_even (hd : 0 < d) (heven : m % 2 = 0) (hm : 0 < m) :
    m ≤ nearest n d ↔ (2 * m - 1) * d ≤ 2 * n := by
  have hsum := Nat.div_add_mod n d
  have hmod := Nat.mod_lt n hd
  -- The quotient against the integer just below the even one.
  obtain ⟨k, rfl⟩ := Nat.exists_eq_add_one.2 hm
  have hhalf : (2 * (k + 1) - 1) * d = 2 * (k * d) + d := by
    rw [show 2 * (k + 1) - 1 = 2 * k + 1 by omega]
    ring
  rw [hhalf]
  rcases Nat.lt_trichotomy (n / d) k with hlt | heq | hgt
  · have hnearest : nearest n d ≤ k := by
      rcases nearest_cases n d with ⟨h, -⟩ | ⟨h, -⟩ <;> omega
    have hprod : d * (n / d + 1) ≤ k * d := by
      rw [Nat.mul_comm]
      exact Nat.mul_le_mul_right d hlt
    rw [Nat.mul_add, Nat.mul_one] at hprod
    omega
  · subst heq
    rw [Nat.mul_comm] at hsum
    unfold nearest
    dsimp only
    split_ifs <;> omega
  · have hprod : (k + 1) * d ≤ d * (n / d) := by
      rw [Nat.mul_comm d]
      exact Nat.mul_le_mul_right d hgt
    rw [Nat.add_mul, Nat.one_mul] at hprod
    have hnearest : k + 1 ≤ nearest n d := by
      rcases nearest_cases n d with ⟨h, -⟩ | ⟨h, -⟩ <;> omega
    omega

/-! ## (3) Rounding -/

/-- The exponent that a quotient is scaled by before it is rounded. -/
def unitExponent (num den : Nat) : Int := max (-1074) (floorLog2 num den - 52)

/-- **The steps of rounding:** the quotient is scaled, the nearest integer is the significand, and a
significand that is too large by one carries into the exponent. -/
theorem exists_round (negative : Bool) (hnum : 0 < num) (hden : 0 < den) :
    ∃ (n d m : Nat) (f : Int),
    (0 < d ∧ (n : ℚ) / d = num / den / 2 ^ unitExponent num den) ∧
    (nearest n d ≤ 2 ^ 53 ∧ m < 2 ^ 53) ∧
    (m : ℚ) * 2 ^ f = nearest n d * 2 ^ unitExponent num den ∧
    f = (if nearest n d = 2 ^ 53 then unitExponent num den + 1 else unitExponent num den) ∧
    round negative num den = if 971 < f then .infinite negative else .finite negative m f := by
  obtain ⟨hpos, hscaled⟩ := shift_spec num hden (unitExponent num den)
  set n := (shift num den (unitExponent num den)).1 with hn
  set d := (shift num den (unitExponent num den)).2 with hd
  -- The unit is chosen such that the quotient is less than `2 ^ 53` units.
  have hle : nearest n d ≤ 2 ^ 53 := by
    refine nearest_le hpos ?_
    have hpos' : (0 : ℚ) < d := Nat.cast_pos.2 hpos
    have hlt : (n : ℚ) / d < 2 ^ 53 := by
      rw [hscaled, div_lt_iff₀ (by positivity), ← zpow_natCast, ← zpow_add₀ two_ne_zero]
      refine (floorLog2_spec hnum hden).2.trans_le (zpow_le_zpow_right₀ one_le_two ?_)
      rw [unitExponent]
      omega
    rw [div_lt_iff₀ hpos'] at hlt
    exact_mod_cast hlt.le
  have hround : round negative num den =
      let rounded := if nearest n d = 2 ^ 53 then (2 ^ 52, unitExponent num den + 1)
        else (nearest n d, unitExponent num den)
      if 971 < rounded.2 then .infinite negative else .finite negative rounded.1 rounded.2 := by
    rw [round, if_neg hnum.ne']
    rfl
  by_cases hcarry : nearest n d = 2 ^ 53
  · -- Half of the significand with the next exponent is the same number.
    refine ⟨n, d, 2 ^ 52, unitExponent num den + 1, ⟨hpos, hscaled⟩, ⟨hle, by decide⟩, ?_,
      (if_pos hcarry).symm, ?_⟩
    · rw [hcarry, zpow_add_one₀ two_ne_zero]
      push_cast
      ring
    · rw [hround, if_pos hcarry]
  · refine ⟨n, d, nearest n d, unitExponent num den, ⟨hpos, hscaled⟩,
      ⟨hle, Nat.lt_of_le_of_ne hle hcarry⟩, rfl, (if_neg hcarry).symm, ?_⟩
    rw [hround, if_neg hcarry]

/-- The bound of the finite numbers lies half a unit above the greatest of them. -/
theorem cast_overflow : (overflow : ℚ) = (2 ^ 54 - 1) / 2 * 2 ^ (971 : Int) := by
  have hpow : (2 : ℚ) ^ (971 : Int) = 2 ^ 970 * 2 := zpow_add_one₀ two_ne_zero (970 : Nat)
  have hhalf : (2 ^ 54 - 1 : ℚ) = (2 ^ 54 - 1 : Nat) := by norm_num
  rw [hpow, overflow, Nat.cast_mul, Nat.cast_pow, Nat.cast_two, hhalf]
  generalize (2 : ℚ) ^ 970 = x
  ring

/-- The bound of the finite numbers lies between two powers of two. -/
theorem overflow_bounds :
    (2 : ℚ) ^ (1023 : Int) ≤ overflow ∧ (overflow : ℚ) ≤ 2 ^ (1024 : Int) := by
  have hpow (k : Int) : (2 : ℚ) ^ (k + 971) = 2 ^ k * 2 ^ (971 : Int) := zpow_add₀ two_ne_zero k _
  rw [cast_overflow, show (1023 : Int) = 52 + 971 from rfl, show (1024 : Int) = 53 + 971 from rfl,
    hpow, hpow]
  constructor <;> gcongr <;> norm_num

/-- The bound of the finite numbers is positive. -/
theorem overflow_pos : 0 < overflow := by
  have hpos : (0 : ℚ) < overflow := lt_of_lt_of_le (by positivity) overflow_bounds.1
  exact_mod_cast hpos

/-- Every natural number that fits into a machine word is in range. -/
theorem lt_overflow (hm : m < 2 ^ 64) : m < overflow := by
  have hm' : (m : ℚ) < 2 ^ (64 : Int) := by exact_mod_cast hm
  have hle := zpow_le_zpow_right₀ (one_le_two (α := ℚ)) (by decide : (64 : Int) ≤ 1023)
  exact_mod_cast (hm'.trans_le hle).trans_le overflow_bounds.1

/-- Rounding carries beyond the format exactly from `overflow` on. -/
theorem lt_exponent_iff (hnum : 0 < num) (hden : 0 < den) {f : Int} (hd : 0 < d)
    (hscaled : (n : ℚ) / d = num / den / 2 ^ unitExponent num den) (hle : nearest n d ≤ 2 ^ 53)
    (hf : f = if nearest n d = 2 ^ 53 then unitExponent num den + 1 else unitExponent num den) :
    971 < f ↔ overflow * den ≤ num := by
  obtain ⟨hbelow, habove⟩ := floorLog2_spec hnum hden
  have hden' : (0 : ℚ) < den := Nat.cast_pos.2 hden
  have hoverflow : overflow * den ≤ num ↔ (overflow : ℚ) ≤ num / den := by
    rw [le_div_iff₀ hden']
    exact_mod_cast Iff.rfl
  rw [hoverflow]
  have hunit : unitExponent num den = max (-1074) (floorLog2 num den - 52) := rfl
  rcases Int.lt_trichotomy (floorLog2 num den) 1023 with hlt | heq | hgt
  · -- Even with a carry the exponent is in range.
    have hsmall : ¬971 < f := by
      rw [hf]
      split <;> omega
    have hquotient : (num : ℚ) / den < overflow := by
      have hle : floorLog2 num den + 1 ≤ 1023 := hlt
      exact habove.trans_le ((zpow_le_zpow_right₀ one_le_two hle).trans overflow_bounds.1)
    exact iff_of_false hsmall (not_le.2 hquotient)
  · -- The exponent is the greatest one, and the carry decides.
    have hunit' : unitExponent num den = 971 := by omega
    have hcarry : 971 < f ↔ 2 ^ 53 ≤ nearest n d := by
      rw [hf, hunit']
      split <;> omega
    have hd' : (0 : ℚ) < d := Nat.cast_pos.2 hd
    have hhalf : (2 * 2 ^ 53 - 1) * d ≤ 2 * n ↔ ((2 ^ 54 - 1) / 2 : ℚ) ≤ n / d := by
      rw [le_div_iff₀ hd', div_mul_eq_mul_div, div_le_iff₀ two_pos, mul_comm (n : ℚ)]
      norm_num
      exact_mod_cast Iff.rfl
    rw [hcarry, le_nearest_iff_of_even hd (by decide) (by decide), hhalf, hscaled, hunit',
      le_div_iff₀ (by positivity), cast_overflow]
  · have hlarge : 971 < f := by
      rw [hf]
      split <;> omega
    have hquotient : (overflow : ℚ) ≤ num / den := by
      have hle : 1024 ≤ floorLog2 num den := hgt
      exact overflow_bounds.2.trans ((zpow_le_zpow_right₀ one_le_two hle).trans hbelow)
    exact iff_of_true hlarge hquotient

/-- **Rounding** gives a finite number of the format below `overflow`, and an infinite one from
there on. -/
theorem round_spec (negative : Bool) (num : Nat) (hden : 0 < den) :
    overflow * den ≤ num ∧ round negative num den = .infinite negative ∨
      num < overflow * den ∧ ∃ m e, round negative num den = .finite negative m e ∧
        m < 2 ^ 53 ∧ e ≤ 971 := by
  rcases Nat.eq_zero_or_pos num with rfl | hnum
  · exact .inr ⟨Nat.mul_pos overflow_pos hden, 0, -1074, rfl, by decide, by decide⟩
  · obtain ⟨n, d, m, f, ⟨hd, hscaled⟩, ⟨hle, hm⟩, -, hf, hround⟩ :=
      exists_round negative hnum hden
    have hiff := lt_exponent_iff hnum hden hd hscaled hle hf
    by_cases hbig : 971 < f
    · exact .inl ⟨hiff.1 hbig, by rw [hround, if_pos hbig]⟩
    · exact .inr ⟨Nat.not_le.1 (mt hiff.2 hbig), m, f, by rw [hround, if_neg hbig], hm,
        Int.not_lt.1 hbig⟩

/-- A quotient that is at most one is rounded to at most one. -/
theorem round_le_one (hden : 0 < den) (hle : num ≤ den) (h : round negative num den =
    .finite negative m e) : (magnitude m e).1 ≤ (magnitude m e).2 := by
  obtain ⟨hpos, hvalue⟩ := magnitude_spec m e
  have hpos' : (0 : ℚ) < (magnitude m e).2 := Nat.cast_pos.2 hpos
  rw [← Nat.cast_le (α := ℚ), ← div_le_one hpos', hvalue]
  rcases Nat.eq_zero_or_pos num with rfl | hnum
  · rw [round, if_pos rfl] at h
    obtain ⟨-, rfl, -⟩ := Binary64.finite.inj h
    simp
  · obtain ⟨n, d, m', f, ⟨hd, hscaled⟩, -, hcarried, -, hround⟩ :=
      exists_round negative hnum hden
    have hquotient : (num : ℚ) / den ≤ 1 :=
      div_le_one_of_le₀ (Nat.cast_le.2 hle) (Nat.cast_nonneg den)
    obtain ⟨rfl, rfl⟩ : m = m' ∧ e = f := by
      rw [hround] at h
      split at h
      · cases h
      · exact ⟨(Binary64.finite.inj h).2.1.symm, (Binary64.finite.inj h).2.2.symm⟩
    -- One is a multiple of the unit, so nothing at most one is rounded beyond it.
    have hlog : floorLog2 num den ≤ 0 := by
      refine Int.not_lt.1 fun hlt => ?_
      have := ((zpow_le_zpow_right₀ one_le_two hlt).trans (floorLog2_spec hnum hden).1).trans
        hquotient
      norm_num at this
    obtain ⟨k, hk⟩ : ∃ k : Nat, unitExponent num den = -k := by
      refine ⟨(-unitExponent num den).toNat, ?_⟩
      rw [unitExponent]
      omega
    have hnearest : nearest n d ≤ 2 ^ k := by
      refine nearest_le hd ?_
      have hd' : (0 : ℚ) < d := Nat.cast_pos.2 hd
      have hn : (n : ℚ) / d ≤ 2 ^ k := by
        rw [hscaled, hk, zpow_neg, div_inv_eq_mul, zpow_natCast]
        exact mul_le_of_le_one_left (by positivity) hquotient
      rw [div_le_iff₀ hd'] at hn
      exact_mod_cast hn
    rw [hcarried, hk, zpow_neg, zpow_natCast, ← div_eq_mul_inv, div_le_one (by positivity)]
    exact_mod_cast hnearest

/-! ## (4) Operations -/

/-- **An integer** has a nearest number exactly if it lies below `overflow`. -/
theorem ofInt?_spec (i : Int) :
    overflow ≤ i.natAbs ∧ ofInt? i = none ∨
      i.natAbs < overflow ∧ ∃ negative m e, ofInt? i = some (.finite negative m e) ∧
        m < 2 ^ 53 ∧ e ≤ 971 := by
  unfold ofInt?
  rcases round_spec (decide (i < 0)) i.natAbs Nat.one_pos with
    ⟨hle, hround⟩ | ⟨hlt, m, e, hround, hbounds⟩
  · exact .inl ⟨by rwa [Nat.mul_one] at hle, by rw [hround]⟩
  · exact .inr ⟨by rwa [Nat.mul_one] at hlt, _, m, e, by rw [hround], hbounds⟩

/-- A number of the format lies below `overflow`. -/
theorem magnitude_lt (hm : m < 2 ^ 53) (he : e ≤ 971) :
    (magnitude m e).1 < overflow * (magnitude m e).2 := by
  obtain ⟨hpos, hvalue⟩ := magnitude_spec m e
  have hpos' : (0 : ℚ) < (magnitude m e).2 := Nat.cast_pos.2 hpos
  have hm' : (m : ℚ) ≤ 2 ^ 53 - 1 := by
    rw [le_sub_iff_add_le]
    exact_mod_cast hm
  rw [← Nat.cast_lt (α := ℚ), Nat.cast_mul, ← div_lt_iff₀ hpos', hvalue]
  calc (m : ℚ) * 2 ^ e ≤ (2 ^ 53 - 1) * 2 ^ (971 : Int) := by
        gcongr
        · exact one_le_two
    _ < (2 ^ 54 - 1) / 2 * 2 ^ (971 : Int) := by
        gcongr
        norm_num
    _ = overflow := cast_overflow.symm

/-- The order of two finite factors does not matter. -/
theorem mul_comm_finite (s t : Bool) (m k : Nat) (e f : Int) :
    mul (.finite s m e) (.finite t k f) = mul (.finite t k f) (.finite s m e) := by
  simp only [mul, bne_comm (a := s), Nat.mul_comm]

/-- **A finite number times one that is at most one** is finite. -/
theorem exists_mul_of_unit (s t : Bool) {k : Nat} {f : Int} (hm : m < 2 ^ 53) (he : e ≤ 971)
    (hunit : (magnitude k f).1 ≤ (magnitude k f).2) :
    ∃ negative m' e', mul (.finite s m e) (.finite t k f) = .finite negative m' e' := by
  have hpos := (magnitude_spec k f).1
  have hlt : (magnitude m e).1 * (magnitude k f).1 <
      overflow * ((magnitude m e).2 * (magnitude k f).2) := by
    rw [← Nat.mul_assoc]
    exact Nat.mul_lt_mul_of_lt_of_le (magnitude_lt hm he) hunit hpos
  rcases round_spec (s != t) ((magnitude m e).1 * (magnitude k f).1)
    (Nat.mul_pos (magnitude_spec m e).1 hpos) with ⟨hle, -⟩ | ⟨-, m', e', hround, -⟩
  · exact absurd hle (Nat.not_le.2 hlt)
  · exact ⟨_, m', e', hround⟩

/-- The numbers of the unit range are finite and at most one. -/
theorem exists_of_inUnitRange {x : Binary64} (h : x.inUnitRange = true) :
    ∃ m e, x = .finite false m e ∧ (magnitude m e).1 ≤ (magnitude m e).2 := by
  cases x with
  | nan => cases h
  | infinite negative => cases h
  | finite negative m e =>
    simp only [inUnitRange, Bool.and_eq_true, Bool.not_eq_true', decide_eq_true_eq] at h
    obtain ⟨⟨rfl, -⟩, hle⟩ := h
    exact ⟨m, e, rfl, hle⟩

/-! ## (5) Accuracy -/

/-- The absolute value of a number, nothing if it is not finite. -/
def absolute : Binary64 → ℚ
  | .finite _ m e => m * 2 ^ e
  | _ => 0

/-- Half of the least positive number. -/
def halfLeast : ℚ := 2 ^ (-1075 : Int)

/-- Half of the least positive number is positive. -/
theorem halfLeast_pos : 0 < halfLeast := by
  unfold halfLeast
  positivity

/-- What a number may be rounded up to: by half a unit of its last place, or of the least place that
there is. -/
def roundedUp (q : ℚ) : ℚ := q + q / 2 ^ 53 + halfLeast

/-- A number that is not negative is rounded up to one that is not. -/
theorem roundedUp_nonneg {q : ℚ} (hq : 0 ≤ q) : 0 ≤ roundedUp q := by
  have := halfLeast_pos
  unfold roundedUp
  positivity

/-- Rounding up is monotone. -/
theorem roundedUp_mono {p q : ℚ} (h : p ≤ q) : roundedUp p ≤ roundedUp q := by
  unfold roundedUp
  gcongr

/-- No absolute value is negative. -/
theorem absolute_nonneg (x : Binary64) : 0 ≤ x.absolute := by
  cases x <;> simp only [absolute, le_refl]
  positivity

/-- The nearest integer to a quotient is at most one half above it. -/
theorem nearest_le_add_half (n : Nat) (hd : 0 < d) : (nearest n d : ℚ) ≤ n / d + 1 / 2 := by
  have hd' : (0 : ℚ) < d := Nat.cast_pos.2 hd
  have hsum := Nat.div_add_mod' n d
  have htwice : 2 * nearest n d * d ≤ 2 * n + d := by
    rw [Nat.mul_assoc]
    rcases nearest_cases n d with ⟨h, -⟩ | ⟨h, hrest⟩
    · rw [h]
      omega
    · rw [h, Nat.add_mul]
      omega
  rw [div_add_div _ _ hd'.ne' two_ne_zero, le_div_iff₀ (by positivity)]
  have htwice' : (2 * nearest n d * d : ℚ) ≤ 2 * n + d := by exact_mod_cast htwice
  linarith

/-- Half of the unit that a quotient is scaled by. -/
theorem half_unit_le (hnum : 0 < num) (hden : 0 < den) :
    (1 / 2 : ℚ) * 2 ^ unitExponent num den ≤ num / den / 2 ^ 53 + halfLeast := by
  have hsplit : ∀ k : Int, (1 / 2 : ℚ) * 2 ^ k = 2 ^ (k - 1) := by
    intro k
    rw [zpow_sub_one₀ two_ne_zero]
    ring
  have hquotient : (0 : ℚ) ≤ num / den / 2 ^ 53 := by positivity
  rw [hsplit, unitExponent]
  rcases le_total (floorLog2 num den - 52) (-1074) with hle | hle
  · rw [max_eq_left hle]
    exact le_add_of_nonneg_left hquotient
  · rw [max_eq_right hle]
    have hlog : (2 : ℚ) ^ (floorLog2 num den - 52 - 1) = 2 ^ floorLog2 num den / 2 ^ 53 := by
      rw [show floorLog2 num den - 52 - 1 = floorLog2 num den - (53 : Nat) by push_cast; ring,
        zpow_sub₀ two_ne_zero, zpow_natCast]
    have hle' : (2 : ℚ) ^ floorLog2 num den / 2 ^ 53 ≤ num / den / 2 ^ 53 := by
      gcongr
      exact (floorLog2_spec hnum hden).1
    rw [hlog]
    exact hle'.trans (le_add_of_nonneg_right halfLeast_pos.le)

/-- **Rounding** does not go far above a quotient. -/
theorem absolute_round_le (negative : Bool) (num : Nat) (hden : 0 < den) :
    (round negative num den).absolute ≤ roundedUp (num / den) := by
  rcases Nat.eq_zero_or_pos num with rfl | hnum
  · rw [round, if_pos rfl]
    simp only [absolute, Nat.cast_zero, zero_mul]
    exact roundedUp_nonneg (by positivity)
  · obtain ⟨n, d, m, f, ⟨hd, hscaled⟩, -, hcarried, -, hround⟩ :=
      exists_round negative hnum hden
    rw [hround]
    split
    · exact roundedUp_nonneg (by positivity)
    · rw [absolute, hcarried]
      have hunit : (0 : ℚ) < 2 ^ unitExponent num den := by positivity
      calc (nearest n d : ℚ) * 2 ^ unitExponent num den
          ≤ (n / d + 1 / 2) * 2 ^ unitExponent num den := by
            gcongr
            exact nearest_le_add_half n hd
        _ = num / den + 1 / 2 * 2 ^ unitExponent num den := by
            rw [hscaled, add_mul, div_mul_cancel₀ _ hunit.ne']
        _ ≤ roundedUp (num / den) := by
            rw [roundedUp, add_assoc]
            gcongr
            exact half_unit_le hnum hden

/-- An integer is rounded to no more than it may be. -/
theorem absolute_ofInt?_le (i : Int) : ((ofInt? i).getD .nan).absolute ≤ roundedUp |(i : ℚ)| := by
  have hround := absolute_round_le (decide (i < 0)) i.natAbs Nat.one_pos
  have habs : ((i.natAbs : Nat) : ℚ) / (1 : Nat) = |(i : ℚ)| := by
    rw [Nat.cast_one, div_one, Nat.cast_natAbs, Int.cast_abs]
  rw [habs] at hround
  unfold ofInt?
  split
  · exact roundedUp_nonneg (abs_nonneg _)
  · exact hround

/-- A product is rounded to no more than it may be. -/
theorem absolute_mul_le (x y : Binary64) :
    (mul x y).absolute ≤ roundedUp (x.absolute * y.absolute) := by
  have hnone : (0 : ℚ) ≤ roundedUp (x.absolute * y.absolute) :=
    roundedUp_nonneg (mul_nonneg x.absolute_nonneg y.absolute_nonneg)
  -- Only a product of finite numbers can be more than nothing.
  cases x with
  | nan => exact hnone
  | infinite s =>
    cases y with
    | nan => exact hnone
    | infinite t => exact hnone
    | finite t k f =>
      rw [mul]
      split <;> exact hnone
  | finite s m e =>
    cases y with
    | nan => exact hnone
    | infinite t =>
      rw [mul]
      split <;> exact hnone
    | finite t k f =>
      obtain ⟨hpos, hvalue⟩ := magnitude_spec m e
      obtain ⟨hpos', hvalue'⟩ := magnitude_spec k f
      have hround := absolute_round_le (s != t) ((magnitude m e).1 * (magnitude k f).1)
        (Nat.mul_pos hpos hpos')
      rw [Nat.cast_mul, Nat.cast_mul, mul_div_mul_comm, hvalue, hvalue'] at hround
      exact hround

/-- The integer part of a number is not above its absolute value. -/
theorem truncate?_le (x : Binary64) : ((x.truncate?.getD 0 : Int) : ℚ) ≤ x.absolute := by
  cases x with
  | nan => simp [truncate?, absolute]
  | infinite negative => simp [truncate?, absolute]
  | finite negative m e =>
    obtain ⟨hpos, hvalue⟩ := magnitude_spec m e
    have hfloor : (((magnitude m e).1 / (magnitude m e).2 : Nat) : ℚ) ≤ m * 2 ^ e :=
      hvalue ▸ Nat.cast_div_le
    have hnonneg : (0 : ℚ) ≤ ((magnitude m e).1 / (magnitude m e).2 : Nat) := Nat.cast_nonneg _
    cases negative with
    | false =>
      simp only [truncate?, absolute, Option.getD_some, Bool.false_eq_true, if_false,
        Int.cast_natCast]
      exact hfloor
    | true =>
      simp only [truncate?, absolute, Option.getD_some, if_true, Int.cast_neg, Int.cast_natCast]
      linarith

end ChapterLayout.Binary64
