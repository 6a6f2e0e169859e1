import StackScript.Proofs.Binary64.Intervals

/-! The shortest decimal of a number rounds to the number. The search for it starts at the power
of ten of the first digit and always ends within seventeen digits, for then the grid is finer
than the interval.
-/

namespace StackScript.Binary64

/-- The value of a decimal. -/
def Decimal.value (decimal : Decimal) : ℚ :=
  decimal.coefficient * 10 ^ decimal.power

namespace Neighbourhood

variable {area : Neighbourhood}

-----------------------------------------------------------------------------------------
-- Grids
-----------------------------------------------------------------------------------------

/-- The number lies strictly between the bounds, which are counted in a positive unit. -/
structure Proper (area : Neighbourhood) : Prop where
  low : area.low < area.centre
  high : area.centre < area.high
  up : 0 < area.scaleUp
  down : 0 < area.scaleDown

/-- The unit of the grid as a natural number. -/
def unit (area : Neighbourhood) (power : Int) : ℕ :=
  area.scaleDown * Nat.pow 10 power.toNat

/-- The quarter, scaled like the unit of the grid. -/
def scale (area : Neighbourhood) (power : Int) : ℕ :=
  area.scaleUp * Nat.pow 10 (-power).toNat

/-- The point of the grid that is not above the number. -/
def below (area : Neighbourhood) (power : Int) : ℕ :=
  area.centre * area.scale power / area.unit power

/-- The length by which the quarter and the unit of the grid are scaled. -/
def density (area : Neighbourhood) (power : Int) : ℚ :=
  area.scaleDown * (10 ^ (-power).toNat : ℕ)

namespace Proper

theorem density_pos (proper : area.Proper) (power : Int) : 0 < area.density power :=
  mul_pos (Nat.cast_pos.mpr proper.down) (Nat.cast_pos.mpr (by positivity))

theorem quarter_pos (proper : area.Proper) : 0 < area.quarter :=
  div_pos (Nat.cast_pos.mpr proper.up) (Nat.cast_pos.mpr proper.down)

theorem unit_pos (proper : area.Proper) (power : Int) : 0 < area.unit power :=
  Nat.mul_pos proper.down (Nat.pow_pos (by decide))

theorem cast_scale (proper : area.Proper) (power : Int)
    : (area.scale power : ℚ) = area.quarter * area.density power := by
  have down : (area.scaleDown : ℚ) ≠ 0 := (Nat.cast_pos.mpr proper.down).ne'
  rw [scale, density, quarter, ← mul_assoc, div_mul_cancel₀ _ down, Nat.pow_eq, Nat.cast_mul]

end Proper

theorem cast_unit (area : Neighbourhood) (power : Int)
    : (area.unit power : ℚ) = 10 ^ power * area.density power := by
  have positive : ((10 ^ (-power).toNat : ℕ) : ℚ) ≠ 0 := Nat.cast_ne_zero.mpr (by positivity)
  have ten := div_mul_cancel₀ ((10 ^ power.toNat : ℕ) : ℚ) positive
  rw [natPow_div_natPow, Nat.cast_ofNat] at ten
  rw [unit, density, Nat.pow_eq, Nat.cast_mul, ← ten, mul_left_comm]

section

variable (proper : area.Proper) (power : Int) (bound point : ℕ)

include proper

/-- Scaled bounds and points compare like the bounds and the points. -/
theorem Proper.bound_lt_point_iff
    : bound * area.scale power < point * area.unit power
      ↔ (bound : ℚ) * area.quarter < point * 10 ^ power := by
  rw [← Nat.cast_lt (α := ℚ), Nat.cast_mul, Nat.cast_mul, proper.cast_scale, cast_unit,
    ← mul_assoc, ← mul_assoc, mul_lt_mul_iff_left₀ (proper.density_pos power)]

theorem Proper.point_lt_bound_iff
    : point * area.unit power < bound * area.scale power
      ↔ (point : ℚ) * 10 ^ power < bound * area.quarter := by
  rw [← Nat.cast_lt (α := ℚ), Nat.cast_mul, Nat.cast_mul, proper.cast_scale, cast_unit,
    ← mul_assoc, ← mul_assoc, mul_lt_mul_iff_left₀ (proper.density_pos power)]

theorem Proper.bound_eq_point_iff
    : bound * area.scale power = point * area.unit power
      ↔ (bound : ℚ) * area.quarter = point * 10 ^ power := by
  rw [← Nat.cast_inj (R := ℚ), Nat.cast_mul, Nat.cast_mul, proper.cast_scale, cast_unit,
    ← mul_assoc, ← mul_assoc, mul_left_inj' (proper.density_pos power).ne']

end

/-- A point that is taken from a grid is one of the two next to the number, and it lies on the
inner side of the bound beyond it.
-/
theorem onGrid?_cases {tie : Tie} {power : Int} {coefficient : ℕ}
    (found : area.onGrid? tie power = some coefficient)
    : (coefficient = area.below power
        ∧ (area.low * area.scale power < coefficient * area.unit power
          ∨ (area.closed = true ∧ area.low * area.scale power = coefficient * area.unit power)))
      ∨ (coefficient = area.below power + 1
        ∧ (coefficient * area.unit power < area.high * area.scale power
          ∨ (area.closed = true
            ∧ coefficient * area.unit power = area.high * area.scale power))) := by
  simp only [onGrid?, Bool.and_eq_true, Bool.or_eq_true, decide_eq_true_eq] at found
  split at found
  case isTrue both =>
    split at found
    · cases found
      exact .inl ⟨rfl, both.1⟩
    split at found
    · cases found
      exact .inr ⟨rfl, both.2⟩
    cases tie with
    | away =>
        cases found
        exact .inr ⟨rfl, both.2⟩
    | even =>
        rw [Option.some.injEq] at found
        split at found <;> subst found
        · exact .inl ⟨rfl, both.1⟩
        · exact .inr ⟨rfl, both.2⟩
  case isFalse =>
    split at found
    case isTrue fits =>
      cases found
      exact .inl ⟨rfl, fits⟩
    split at found
    case isTrue fits =>
      cases found
      exact .inr ⟨rfl, fits⟩
    cases found

/-- A point that is taken from a grid lies in the interval. -/
theorem Proper.contains_of_onGrid? (proper : area.Proper) {tie : Tie} {power : Int}
    {coefficient : ℕ} (found : area.onGrid? tie power = some coefficient)
    : area.Contains (coefficient * 10 ^ power) := by
  have low : (area.low : ℚ) * area.quarter < area.centre * area.quarter :=
    mul_lt_mul_of_pos_right (Nat.cast_lt.mpr proper.low) proper.quarter_pos
  have high : (area.centre : ℚ) * area.quarter < area.high * area.quarter :=
    mul_lt_mul_of_pos_right (Nat.cast_lt.mpr proper.high) proper.quarter_pos
  rcases onGrid?_cases found with ⟨rfl, fits⟩ | ⟨rfl, fits⟩
  · have under : (area.below power : ℚ) * 10 ^ power ≤ area.centre * area.quarter := by
      rw [← not_lt, ← proper.bound_lt_point_iff, not_lt]
      exact Nat.div_mul_le_self ..
    rw [proper.bound_lt_point_iff, proper.bound_eq_point_iff] at fits
    exact ⟨fits, .inl (lt_of_le_of_lt under high)⟩
  · have beyond : (area.centre : ℚ) * area.quarter < (area.below power + 1 : ℕ) * 10 ^ power := by
      rw [← proper.bound_lt_point_iff, Nat.mul_comm (_ + 1)]
      exact Nat.lt_mul_div_succ _ (proper.unit_pos power)
    rw [proper.point_lt_bound_iff, eq_comm (a := _ * area.unit power),
      proper.bound_eq_point_iff] at fits
    exact ⟨.inl (low.trans beyond), fits.imp_right fun ⟨closed, meets⟩ => ⟨closed, meets.symm⟩⟩

/-- A grid that is finer than the interval is wide has a point in it. -/
theorem Proper.exists_onGrid? (proper : area.Proper) (tie : Tie) {power : Int}
    (fine : (10 : ℚ) ^ power < (area.high - area.low) * area.quarter)
    : ∃ coefficient, area.onGrid? tie power = some coefficient := by
  have wide : area.low < area.high := proper.low.trans proper.high
  have finer : 1 * area.unit power < (area.high - area.low) * area.scale power := by
    rw [proper.point_lt_bound_iff, Nat.cast_sub wide.le]
    simpa using fine
  -- If the point below the number misses the interval then the next one is still in it.
  have next (missed : area.below power * area.unit power ≤ area.low * area.scale power)
      : (area.below power + 1) * area.unit power < area.high * area.scale power := by
    rw [Nat.sub_mul] at finer
    rw [Nat.add_mul]
    omega
  rw [← Option.isSome_iff_exists]
  simp only [onGrid?, Bool.and_eq_true, Bool.or_eq_true, decide_eq_true_eq]
  split
  · split
    · rfl
    split
    · rfl
    cases tie <;> rfl
  split
  · rfl
  case isFalse low =>
    rw [not_or, not_lt] at low
    rw [if_pos (.inl (next low.1))]
    rfl

/-- The search ends in the interval if one of its grids is fine enough. -/
theorem Proper.contains_search (proper : area.Proper) {tie : Tie} {power : Int} {tries : ℕ}
    (fine : (10 : ℚ) ^ (power - tries) < (area.high - area.low) * area.quarter)
    : area.Contains (area.search tie power (tries + 1)).value := by
  induction tries generalizing power with
  | zero =>
      rw [Int.natCast_zero, Int.sub_zero] at fine
      obtain ⟨coefficient, found⟩ := proper.exists_onGrid? tie fine
      rw [search, found]
      exact proper.contains_of_onGrid? found
  | succ tries ih =>
      rw [search]
      split
      case _ coefficient found => exact proper.contains_of_onGrid? found
      case _ => exact ih (by rwa [Int.sub_sub, Int.add_comm 1])

-----------------------------------------------------------------------------------------
-- The first digit
-----------------------------------------------------------------------------------------

theorem Proper.reaches_iff (proper : area.Proper) (power : Int)
    : area.reaches power = true ↔ (10 : ℚ) ^ power ≤ area.centre * area.quarter := by
  have point := proper.bound_lt_point_iff power area.centre 1
  rw [Nat.cast_one, one_mul, one_mul] at point
  rw [← not_lt, ← point, not_lt, reaches, decide_eq_true_eq, Nat.mul_comm _ area.scaleDown,
    Nat.mul_assoc]
  rfl

/-- The number is at least half the power of two by which its power of ten is estimated. -/
theorem Proper.two_zpow_le (proper : area.Proper)
    : (2 : ℚ) ^ (((area.centre * area.scaleUp).log2 : Int) - (area.scaleDown.log2 : Int) - 1)
      ≤ area.centre * area.quarter := by
  have down : (0 : ℚ) < area.scaleDown := Nat.cast_pos.mpr proper.down
  have positive : area.centre * area.scaleUp ≠ 0 :=
    (Nat.mul_pos (Nat.zero_lt_of_lt proper.low) proper.up).ne'
  have above : (2 ^ (area.centre * area.scaleUp).log2 : ℚ) ≤ area.centre * area.scaleUp := by
    exact_mod_cast Nat.log2_self_le positive
  have below : (area.scaleDown : ℚ) ≤ 2 ^ (area.scaleDown.log2 + 1) := by
    exact_mod_cast Nat.lt_log2_self.le
  rw [quarter, mul_div_assoc', le_div_iff₀ down, Int.sub_sub, zpow_sub₀ two_ne_zero,
    div_mul_eq_mul_div, div_le_iff₀ (by positivity)]
  exact_mod_cast mul_le_mul above below down.le (by positivity)

end Neighbourhood

/-- The power of ten that is estimated from a binary logarithm is at most four times the power of
two.
-/
theorem ten_zpow_le_two_zpow {logarithm : Int} (least : -10000 ≤ logarithm)
    (most : logarithm ≤ 10000)
    : (10 : ℚ) ^ (logarithm * 30103 / 100000) ≤ 2 ^ (logarithm + 2) := by
  -- The logarithm of ten to the base two lies between 93 / 28 and 196 / 59.
  have above : (10 : ℚ) ^ 59 ≤ 2 ^ 196 := by norm_num
  have below : (2 : ℚ) ^ 93 ≤ 10 ^ 28 := by norm_num
  generalize estimate : logarithm * 30103 / 100000 = power
  rcases Int.le_total 0 power with up | down
  · obtain ⟨count, rfl⟩ := Int.eq_ofNat_of_zero_le up
    refine le_of_pow_le_pow_left₀ (n := 59) (by decide) (by positivity) ?_
    calc ((10 : ℚ) ^ (count : Int)) ^ 59
        = (10 ^ 59) ^ count := by rw [zpow_natCast, pow_right_comm]
      _ ≤ (2 ^ 196) ^ count := pow_le_pow_left₀ (by positivity) above count
      _ = 2 ^ (196 * count : Int) := by rw [zpow_mul, zpow_natCast]; norm_cast
      _ ≤ 2 ^ ((logarithm + 2) * 59) := zpow_le_zpow_right₀ one_le_two (by omega)
      _ = (2 ^ (logarithm + 2)) ^ 59 := by rw [zpow_mul]; norm_cast
  · obtain ⟨count, same⟩ := Int.eq_ofNat_of_zero_le (Int.neg_nonneg_of_nonpos down)
    obtain rfl : power = -count := by omega
    refine le_of_pow_le_pow_left₀ (n := 28) (by decide) (by positivity) ?_
    calc ((10 : ℚ) ^ (-count : Int)) ^ 28
        = ((10 ^ 28) ^ count)⁻¹ := by rw [zpow_neg, zpow_natCast, inv_pow, pow_right_comm]
      _ ≤ ((2 ^ 93) ^ count)⁻¹ :=
          inv_anti₀ (by positivity) (pow_le_pow_left₀ (by positivity) below count)
      _ = 2 ^ (-(93 * count) : Int) := by rw [zpow_neg, zpow_mul, zpow_natCast]; norm_cast
      _ ≤ 2 ^ ((logarithm + 2) * 28) := zpow_le_zpow_right₀ one_le_two (by omega)
      _ = (2 ^ (logarithm + 2)) ^ 28 := by rw [zpow_mul]; norm_cast

/-- The power of ten at which the search starts does not exceed the number. -/
theorem Neighbourhood.Proper.ten_zpow_decade_le {area : Neighbourhood} (proper : area.Proper)
    (up : (area.centre * area.scaleUp).log2 ≤ 10000) (down : area.scaleDown.log2 ≤ 10000)
    : (10 : ℚ) ^ area.decade ≤ area.centre * area.quarter := by
  rw [decade]
  split
  case isTrue reached => exact (proper.reaches_iff _).mp reached
  split
  case isTrue reached => exact (proper.reaches_iff _).mp reached
  generalize logarithm : ((area.centre * area.scaleUp).log2 : Int) - area.scaleDown.log2 = power
  have half := proper.two_zpow_le
  rw [logarithm] at half
  calc (10 : ℚ) ^ (power * 30103 / 100000 - 1)
      = 10 ^ (power * 30103 / 100000) / 10 := by rw [zpow_sub_one₀ (by norm_num)]; rfl
    _ ≤ 2 ^ (power + 2) / 10 := by
        gcongr
        exact ten_zpow_le_two_zpow (by omega) (by omega)
    _ ≤ 2 ^ (power - 1) := by
        rw [zpow_add₀ two_ne_zero, zpow_sub_one₀ two_ne_zero]
        have positive : (0 : ℚ) < 2 ^ power := by positivity
        norm_num
        linarith
    _ ≤ _ := half

-----------------------------------------------------------------------------------------
-- Numbers
-----------------------------------------------------------------------------------------

section

variable {x : Binary64}

theorem proper_neighbourhood (nonzero : x.isZero = false) : x.neighbourhood.Proper := by
  have positive := significand_pos nonzero
  refine ⟨?_, ?_, Nat.pow_pos (by decide), Nat.pow_pos (by decide)⟩
  · rw [low_neighbourhood]
    change _ < 4 * x.significand
    split <;> omega
  · exact Nat.lt_add_of_pos_right (by decide)

/-- The values that round to a number other than zero are positive. -/
theorem pos_of_contains (nonzero : x.isZero = false) {value : ℚ}
    (contains : x.neighbourhood.Contains value)
    : 0 < value := by
  have quarter := (proper_neighbourhood nonzero).quarter_pos
  have low : 0 < x.neighbourhood.low := by
    have positive := significand_pos nonzero
    rw [low_neighbourhood]
    split <;> omega
  have positive : 0 < x.neighbourhood.low * x.neighbourhood.quarter :=
    mul_pos (Nat.cast_pos.mpr low) quarter
  rcases contains.above with above | ⟨_, reached⟩ <;> linarith

/-- Seventeen digits tell a number from its neighbours: where the first of them stands for a
power that does not exceed the number, the last stands for one below the width of the interval.
-/
theorem seventeen_digits (nonzero : x.isZero = false) {power : Int}
    (reached : (10 : ℚ) ^ power ≤ x.neighbourhood.centre * x.neighbourhood.quarter)
    : (10 : ℚ) ^ (power - (16 : ℕ))
      < (x.neighbourhood.high - x.neighbourhood.low) * x.neighbourhood.quarter := by
  have proper := proper_neighbourhood nonzero
  have quarter := proper.quarter_pos
  have wide : x.neighbourhood.centre
      < 10 ^ 16 * (x.neighbourhood.high - x.neighbourhood.low) := by
    have small := x.significand_lt
    have fraction := x.fractionField_lt
    rw [low_neighbourhood, high_neighbourhood]
    change 4 * x.significand < _
    rcases x.significand_cases with ⟨_, shown⟩ | ⟨_, shown⟩ <;> split <;> omega
  have ratio : (x.neighbourhood.centre : ℚ)
      < 10 ^ 16 * (x.neighbourhood.high - x.neighbourhood.low) := by
    rw [← Nat.cast_sub (proper.low.trans proper.high).le]
    exact_mod_cast wide
  rw [zpow_sub₀ (by norm_num), div_lt_iff₀ (by positivity)]
  calc (10 : ℚ) ^ power
      ≤ x.neighbourhood.centre * x.neighbourhood.quarter := reached
    _ < 10 ^ 16 * (x.neighbourhood.high - x.neighbourhood.low) * x.neighbourhood.quarter :=
        mul_lt_mul_of_pos_right ratio quarter
    _ = _ := by rw [zpow_natCast]; ring

/-- The powers of two by which a number is scaled are small. -/
theorem exponent_bounds (x : Binary64) : -1074 ≤ x.exponent ∧ x.exponent ≤ 972 := by
  have magnitude : x.magnitude < 2 ^ 63 := Nat.mod_lt _ (by decide)
  have fraction := x.magnitude_eq
  rw [exponent]
  omega

/-- The shortest decimal of a number other than zero rounds to the number. -/
theorem contains_shortest (tie : Tie) (nonzero : x.isZero = false)
    : x.neighbourhood.Contains (x.shortest tie).value := by
  have proper := proper_neighbourhood nonzero
  have exponent := x.exponent_bounds
  refine proper.contains_search (seventeen_digits nonzero ?_)
  refine proper.ten_zpow_decade_le ?_ ?_
  · have scaled : x.neighbourhood.centre * x.neighbourhood.scaleUp
        < 2 ^ (55 + (x.exponent - 2).toNat) := by
      have small := x.significand_lt
      rw [Nat.pow_add]
      exact Nat.mul_lt_mul_of_pos_right (show 4 * x.significand < 2 ^ 55 by omega)
        (Nat.pow_pos (by decide))
    have positive := (Nat.mul_pos (Nat.zero_lt_of_lt proper.low) proper.up).ne'
    have := (Nat.log2_lt positive).mpr scaled
    omega
  · change (2 ^ (-(x.exponent - 2)).toNat).log2 ≤ 10000
    rw [Nat.log2_two_pow]
    omega

end

end StackScript.Binary64
