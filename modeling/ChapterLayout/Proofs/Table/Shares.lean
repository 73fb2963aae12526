import ChapterLayout.Proofs.Number.Rounding
import ChapterLayout.Table.Columns

/-! # The shares of columns

Where the columns of a table do not fit into the room, the room is shared out in binary64
arithmetic. `share` has a default for numbers without an integer part, which it never needs:

* **`exists_share`** — every step of the arithmetic has a result as long as the widths that the
  columns ask for have a nearest number in all;
* **`share_le`** — what rounding adds to a share is less than the column's part of one half, and
  next to nothing, unless the room is as wide as `2 ^ 50` columns. -/

namespace ChapterLayout.Table

open Binary64 (overflow)

/-- The room is never less than nothing. -/
theorem room_nonneg (columns : Nat) (maxWidth indentWidth : Int) :
    0 ≤ room columns maxWidth indentWidth :=
  le_max_of_le_right (Int.mul_nonneg (Int.natCast_nonneg _) (Int.natCast_nonneg _))

/-- **A share of the room** is computed without falling back on the default. -/
theorem exists_share {natural total : Nat} {available : Int} (hle : natural ≤ total)
    (hroom : 0 ≤ available) (hlt : available < total) (htotal : total < overflow) :
    ∃ room width, Binary64.ofInt? available = some room ∧
      ((Binary64.ratio natural total).mul room).truncate? = some width ∧
      share natural total available = width := by
  have hpos : 0 < total := by omega
  rcases Binary64.ofInt?_spec available with ⟨hover, -⟩ | ⟨-, s, m, e, hsome, hm, he⟩
  · omega
  rcases Binary64.round_spec false natural hpos with ⟨hover, -⟩ | ⟨-, k, f, hratio, -⟩
  · -- A ratio of at most one does not reach the end of the range.
    have hbig : overflow * total ≤ 1 * total := by omega
    have := Nat.le_of_mul_le_mul_right hbig hpos
    omega
  · have hunit := Binary64.round_le_one hpos hle hratio
    obtain ⟨t, m', e', hmul⟩ := Binary64.exists_mul_of_unit s false hm he hunit
    have hproduct : (Binary64.ratio natural total).mul (.finite s m e) = .finite t m' e' := by
      rw [Binary64.ratio, hratio, Binary64.mul_comm_finite, hmul]
    refine ⟨_, _, hsome, by rw [hproduct]; rfl, ?_⟩
    rw [share, hsome, Option.getD_some, hproduct]
    rfl

/-! ## Accuracy -/

open Binary64 (absolute roundedUp halfLeast halfLeast_pos roundedUp_nonneg roundedUp_mono)

/-- Half of the least positive number is far below a column. -/
theorem halfLeast_le : halfLeast ≤ 1 / 2 ^ 120 := by
  have hpow : (1 / 2 ^ 120 : ℚ) = 2 ^ (-120 : Int) := by
    rw [zpow_neg, one_div]
    rfl
  rw [hpow, halfLeast]
  exact zpow_le_zpow_right₀ one_le_two (by decide)

/-- Three roundings of a part of the room. -/
theorem roundedUp_mul_le {part room : ℚ} (hpart : 0 ≤ part) (hle : part ≤ 1) (hroom : 0 ≤ room)
    (hlt : room ≤ 2 ^ 50) :
    roundedUp (roundedUp part * roundedUp room) ≤ part * (room + 1 / 2) + 1 / 2 ^ 60 := by
  have hpos := halfLeast_pos
  have hsmall := halfLeast_le
  -- What the least place adds is multiplied by the room at most.
  have hproduct : roundedUp part * roundedUp room ≤
      part * room * (1 + 1 / 2 ^ 53) ^ 2 + 2 ^ 52 * halfLeast := by
    have hfirst : part * (1 + 1 / 2 ^ 53) ≤ 2 := by
      norm_num
      linarith
    have hsecond : room * (1 + 1 / 2 ^ 53) ≤ 2 ^ 51 := by
      norm_num at hlt ⊢
      linarith
    have hrest : halfLeast * (part * (1 + 1 / 2 ^ 53) + room * (1 + 1 / 2 ^ 53) + halfLeast) ≤
        halfLeast * 2 ^ 52 := by
      gcongr
      norm_num at hsmall hfirst hsecond ⊢
      linarith
    calc roundedUp part * roundedUp room
        = part * room * (1 + 1 / 2 ^ 53) ^ 2 +
          halfLeast * (part * (1 + 1 / 2 ^ 53) + room * (1 + 1 / 2 ^ 53) + halfLeast) := by
          unfold roundedUp
          ring
      _ ≤ _ := by linarith
  have hexact : part * room * (4 / 2 ^ 53) ≤ part * (1 / 2) := by
    rw [mul_assoc]
    gcongr
    norm_num at hlt ⊢
    linarith
  have hproduct_nonneg : 0 ≤ part * room := mul_nonneg hpart hroom
  calc roundedUp (roundedUp part * roundedUp room)
      ≤ roundedUp (part * room * (1 + 1 / 2 ^ 53) ^ 2 + 2 ^ 52 * halfLeast) :=
        roundedUp_mono hproduct
    _ = part * room * (1 + 1 / 2 ^ 53) ^ 3 + (2 ^ 52 * (1 + 1 / 2 ^ 53) + 1) * halfLeast := by
        unfold roundedUp
        ring
    _ ≤ part * room * (1 + 4 / 2 ^ 53) + 2 ^ 53 * (1 / 2 ^ 120) := by
        gcongr
        · norm_num
        · norm_num
    _ ≤ part * (room + 1 / 2) + 1 / 2 ^ 60 := by
        norm_num at hexact ⊢
        linarith

/-- **A share of the room** is not far above the exact part of the room. -/
theorem share_le {natural total : Nat} {available : Int} (hle : natural ≤ total) (hpos : 0 < total)
    (hroom : 0 ≤ available) (hlt : available ≤ 2 ^ 50) :
    (share natural total available : ℚ) ≤
      natural / total * (available + 1 / 2) + 1 / 2 ^ 60 := by
  have hratio := Binary64.absolute_round_le false natural hpos
  have hnumber := Binary64.absolute_ofInt?_le available
  have hroom' : (0 : ℚ) ≤ available := Int.cast_nonneg hroom
  rw [abs_of_nonneg hroom'] at hnumber
  have hpart : (natural : ℚ) / total ≤ 1 :=
    div_le_one_of_le₀ (Nat.cast_le.2 hle) (Nat.cast_nonneg total)
  have hpart_nonneg : (0 : ℚ) ≤ natural / total := by positivity
  set ratio := Binary64.ratio natural total
  set number := (Binary64.ofInt? available).getD .nan
  calc (share natural total available : ℚ)
      ≤ (ratio.mul number).absolute := Binary64.truncate?_le _
    _ ≤ roundedUp (ratio.absolute * number.absolute) := Binary64.absolute_mul_le ratio number
    _ ≤ roundedUp (roundedUp (natural / total) * roundedUp available) := by
        apply roundedUp_mono
        exact mul_le_mul hratio hnumber number.absolute_nonneg (roundedUp_nonneg hpart_nonneg)
    _ ≤ natural / total * (available + 1 / 2) + 1 / 2 ^ 60 :=
        roundedUp_mul_le hpart_nonneg hpart hroom' (by exact_mod_cast hlt)

end ChapterLayout.Table
