import Mathlib.Algebra.Order.Field.Power
import Mathlib.Algebra.Order.Field.Rat
import Mathlib.Tactic.Linarith
import Mathlib.Tactic.NormNum
import Mathlib.Tactic.Positivity
import Mathlib.Tactic.Ring
import StackScript.Binary64.Shortest

/-! The intervals in which decimals round to a number. The intervals of different numbers have no
decimal in common, for a bound that two of them share belongs only to the one whose
significand is even.
-/

namespace StackScript.Binary64

-----------------------------------------------------------------------------------------
-- Fields
-----------------------------------------------------------------------------------------

/-- The number is neither infinite nor a NaN. -/
def isFinite (x : Binary64) : Bool :=
  !x.isNaN && !x.isInfinite

variable {x y : Binary64}

/-- The bits below the sign and the sign make up the number. -/
theorem eq_of_magnitude (sign : x.isNegative = y.isNegative) (same : x.magnitude = y.magnitude)
    : x = y := by
  have bound := x.bits.toNat_lt
  have bound' := y.bits.toNat_lt
  have bits : x.bits.toNat = y.bits.toNat := by
    simp only [isNegative, magnitude, Nat.pow_eq, decide_eq_decide] at sign same
    omega
  cases x
  cases y
  exact congrArg mk (UInt64.toNat_inj.mp bits)

theorem fractionField_lt (x : Binary64) : x.fractionField < 2 ^ 52 :=
  Nat.mod_lt _ (by decide)

theorem magnitude_eq (x : Binary64) : x.magnitude = 2 ^ 52 * x.exponentField + x.fractionField :=
  (Nat.div_add_mod ..).symm

/-- The significand of a number counts the hidden bit unless the exponent field is zero. -/
theorem significand_cases (x : Binary64)
    : (x.exponentField = 0 ∧ x.significand = x.fractionField)
      ∨ (0 < x.exponentField ∧ x.significand = 2 ^ 52 + x.fractionField) := by
  by_cases zero : x.exponentField = 0
  · exact .inl ⟨zero, if_pos zero⟩
  · exact .inr ⟨Nat.pos_of_ne_zero zero, if_neg zero⟩

/-- The magnitude is told by the significand and its scale. -/
theorem magnitude_eq_of_scaled (exponent : x.exponent = y.exponent)
    (significand : x.significand = y.significand)
    : x.magnitude = y.magnitude := by
  have fraction := x.fractionField_lt
  have fraction' := y.fractionField_lt
  rw [Binary64.exponent, Binary64.exponent] at exponent
  rw [x.magnitude_eq, y.magnitude_eq]
  rcases x.significand_cases with ⟨_, shown⟩ | ⟨_, shown⟩ <;>
    rcases y.significand_cases with ⟨_, shown'⟩ | ⟨_, shown'⟩ <;>
    omega

theorem significand_lt (x : Binary64) : x.significand < 2 ^ 53 := by
  have fraction := x.fractionField_lt
  rcases x.significand_cases with ⟨_, shown⟩ | ⟨_, shown⟩ <;> omega

theorem significand_pos (nonzero : x.isZero = false) : 0 < x.significand := by
  rw [isZero, decide_eq_false_iff_not, x.magnitude_eq] at nonzero
  rcases x.significand_cases with ⟨_, shown⟩ | ⟨_, shown⟩ <;> omega

-----------------------------------------------------------------------------------------
-- Intervals
-----------------------------------------------------------------------------------------

namespace Neighbourhood

/-- The quarter of the last place in which the bounds are counted. -/
def quarter (area : Neighbourhood) : ℚ :=
  area.scaleUp / area.scaleDown

/-- A value rounds to the number of the neighbourhood. -/
structure Contains (area : Neighbourhood) (value : ℚ) : Prop where
  above : area.low * area.quarter < value ∨ (area.closed = true ∧ area.low * area.quarter = value)
  below
    : value < area.high * area.quarter ∨ (area.closed = true ∧ value = area.high * area.quarter)

end Neighbourhood

/-- A power with an integer exponent as a ratio of two natural powers, one of which is one. -/
theorem natPow_div_natPow (base : ℕ) (power : Int)
    : ((base ^ power.toNat : ℕ) : ℚ) / (base ^ (-power).toNat : ℕ) = (base : ℚ) ^ power := by
  rcases Int.le_total 0 power with up | down
  · obtain ⟨count, rfl⟩ := Int.eq_ofNat_of_zero_le up
    simp
  · obtain ⟨count, same⟩ := Int.eq_ofNat_of_zero_le (Int.neg_nonneg_of_nonpos down)
    obtain rfl : power = -count := by omega
    simp

theorem quarter_neighbourhood (x : Binary64) : x.neighbourhood.quarter = 2 ^ (x.exponent - 2) :=
  natPow_div_natPow 2 (x.exponent - 2)

/-- The lower bound lies two quarters below the number, or one below a power of two. -/
theorem low_neighbourhood (x : Binary64)
    : x.neighbourhood.low
      = 4 * x.significand - (if x.fractionField = 0 ∧ 1 < x.exponentField then 1 else 2) := by
  simp only [neighbourhood, Bool.and_eq_true, decide_eq_true_eq]

theorem high_neighbourhood (x : Binary64) : x.neighbourhood.high = 4 * x.significand + 2 := rfl

theorem closed_neighbourhood (x : Binary64)
    : x.neighbourhood.closed = true ↔ x.significand % 2 = 0 :=
  decide_eq_true_iff

/-- Of two numbers with a value in common neither has the smaller scale, and at the same scale
neither has the smaller significand.
-/
theorem not_before {value : ℚ} (first : x.neighbourhood.Contains value)
    (second : y.neighbourhood.Contains value)
    : ¬ (x.exponent < y.exponent
        ∨ (x.exponent = y.exponent ∧ x.significand < y.significand)) := by
  intro before
  have fraction := y.fractionField_lt
  have small := x.significand_lt
  have exponents : ∀ x : Binary64, x.exponent = (max x.exponentField 1 : Int) - 1075 :=
    fun _ => rfl
  have scaled := exponents x
  have scaled' := exponents y
  -- The upper bound of the first, counted in quarters of the second, is not above the lower one
  -- of the second, and if they meet then one of the two significands is odd.
  obtain ⟨count, apart⟩ : ∃ count : ℕ, y.exponent - 2 = x.exponent - 2 + count :=
    ⟨(y.exponent - x.exponent).toNat, by omega⟩
  have unit : (0 : ℚ) < 2 ^ (x.exponent - 2) := by positivity
  have scale : y.neighbourhood.quarter = 2 ^ count * x.neighbourhood.quarter := by
    rw [quarter_neighbourhood, quarter_neighbourhood, apart, zpow_add₀ (by norm_num),
      zpow_natCast, mul_comm]
  have bounds : x.neighbourhood.high ≤ y.neighbourhood.low * 2 ^ count
      ∧ (x.neighbourhood.high = y.neighbourhood.low * 2 ^ count
        → ¬ (x.neighbourhood.closed = true ∧ y.neighbourhood.closed = true)) := by
    rw [closed_neighbourhood, closed_neighbourhood, low_neighbourhood, high_neighbourhood]
    rcases before with less | ⟨same, less⟩
    · have twice : 2 ≤ 2 ^ count := Nat.le_self_pow (by omega) 2
      have grown := Nat.mul_le_mul_left
        (4 * y.significand - (if y.fractionField = 0 ∧ 1 < y.exponentField then 1 else 2)) twice
      rcases y.significand_cases with ⟨_, shown⟩ | ⟨_, shown⟩
      · omega
      · split at grown <;> split <;> omega
    · obtain rfl : count = 0 := by omega
      rw [pow_zero, Nat.mul_one]
      split <;> omega
  have meet : (x.neighbourhood.high : ℚ) * x.neighbourhood.quarter
      ≤ y.neighbourhood.low * y.neighbourhood.quarter := by
    have casted : (x.neighbourhood.high : ℚ) ≤ y.neighbourhood.low * 2 ^ count := by
      exact_mod_cast bounds.1
    rw [scale, ← mul_assoc]
    exact mul_le_mul_of_nonneg_right casted (by rw [quarter_neighbourhood]; exact unit.le)
  rcases first.below with under | ⟨closed, reached⟩
  · rcases second.above with above | ⟨_, reached⟩ <;> linarith
  · rcases second.above with above | ⟨closed', reached'⟩
    · linarith
    · refine bounds.2 ?_ ⟨closed, closed'⟩
      rw [scale, ← mul_assoc, reached] at reached'
      rw [quarter_neighbourhood] at reached'
      exact_mod_cast (mul_right_cancel₀ unit.ne' reached').symm

/-- Different magnitudes have no value in common. -/
theorem magnitude_eq_of_contains {value : ℚ} (first : x.neighbourhood.Contains value)
    (second : y.neighbourhood.Contains value)
    : x.magnitude = y.magnitude := by
  have forward := not_before first second
  have backward := not_before second first
  refine magnitude_eq_of_scaled ?_ ?_ <;> omega

end StackScript.Binary64
