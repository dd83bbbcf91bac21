import PocketCalc.Decimal.Nearest
import PocketCalc.Proofs.NearestMagnitude
import Mathlib.Data.Rat.Cast.CharZero
import Mathlib.Algebra.Order.Field.Power

/-! The value of a decimal number, and the magnitude nearest to it. The value alone decides,
however it is split into a coefficient and an exponent and however large the exponent is. -/

namespace PocketCalc
namespace Decimal

def toRat (decimal : Decimal) : ℚ := decimal.coefficient * 10 ^ decimal.exponent

theorem toRat_nonneg (decimal : Decimal) : 0 ≤ decimal.toRat := by
  unfold toRat
  positivity

theorem denominator_pos (decimal : Decimal) : 0 < decimal.denominator :=
  Nat.pow_pos (by decide)

theorem toRat_eq_div (decimal : Decimal) :
    decimal.toRat = decimal.numerator / decimal.denominator := by
  unfold toRat numerator denominator
  rw [Nat.pow_eq, Nat.pow_eq]
  push_cast
  rw [mul_div_assoc, ← zpow_natCast, ← zpow_natCast, ← zpow_sub₀ (by norm_num)]
  congr 2
  omega

def units (decimal : Decimal) : ℚ := decimal.toRat * Magnitude.unitsPerOne

theorem units_nonneg (decimal : Decimal) : 0 ≤ decimal.units :=
  mul_nonneg decimal.toRat_nonneg (Nat.cast_nonneg _)

theorem units_eq_div (decimal : Decimal) : decimal.units =
    (decimal.numerator * Magnitude.unitsPerOne : ℕ) / decimal.denominator := by
  unfold units
  rw [toRat_eq_div, Nat.cast_mul, div_mul_eq_mul_div]

def clamped (decimal : Decimal) : Decimal := ⟨decimal.coefficient, decimal.boundedExponent⟩

/-- Beyond the upper bound every positive value overflows. -/
theorem overflow_le_units {decimal : Decimal} (positive : decimal.coefficient ≠ 0)
    (high : 400 ≤ decimal.exponent) : (Magnitude.overflow : ℚ) ≤ decimal.units := by
  have whole : (1 : ℚ) ≤ decimal.coefficient := by
    exact_mod_cast Nat.one_le_iff_ne_zero.mpr positive
  have power : (10 : ℚ) ^ 400 ≤ 10 ^ decimal.exponent := by
    rw [← zpow_natCast]
    exact zpow_le_zpow_right₀ (by norm_num) high
  calc (Magnitude.overflow : ℚ) ≤ 2 ^ 2098 := Magnitude.overflow_le
    _ ≤ 2 ^ (3 * 400) * 2 ^ 1074 := by
      rw [← pow_add]
      exact pow_le_pow_right₀ one_le_two (by norm_num)
    _ ≤ 10 ^ 400 * 2 ^ 1074 := by
      rw [pow_mul]
      exact mul_le_mul_of_nonneg_right (pow_le_pow_left₀ (by norm_num) (by norm_num) _)
        (by positivity)
    _ ≤ decimal.coefficient * 10 ^ decimal.exponent * 2 ^ 1074 := by
      refine mul_le_mul_of_nonneg_right (power.trans ?_) (by positivity)
      exact le_mul_of_one_le_left (by positivity) whole
    _ = decimal.units := by rw [units, toRat, Magnitude.unitsPerOne_cast]

/-- Beyond the lower bound every value is less than half a unit. -/
theorem units_lt_half {decimal : Decimal}
    (low : decimal.exponent ≤ -(decimal.coefficient.log2 + 1100)) : decimal.units < 1 / 2 := by
  have coefficient : (decimal.coefficient : ℚ) < 2 ^ (decimal.coefficient.log2 + 1) := by
    exact_mod_cast Nat.lt_log2_self
  have power : (10 : ℚ) ^ decimal.exponent ≤ (2 ^ (decimal.coefficient.log2 + 1100))⁻¹ := by
    calc (10 : ℚ) ^ decimal.exponent
        ≤ 10 ^ (-(decimal.coefficient.log2 + 1100 : ℕ) : ℤ) :=
          zpow_le_zpow_right₀ (by norm_num) (by exact_mod_cast low)
      _ = (10 ^ (decimal.coefficient.log2 + 1100))⁻¹ := by rw [zpow_neg, zpow_natCast]
      _ ≤ (2 ^ (decimal.coefficient.log2 + 1100))⁻¹ :=
          inv_anti₀ (by positivity) (pow_le_pow_left₀ (by norm_num) (by norm_num) _)
  calc decimal.units = decimal.coefficient * 10 ^ decimal.exponent * 2 ^ 1074 := by
        rw [units, toRat, Magnitude.unitsPerOne_cast]
    _ ≤ 2 ^ (decimal.coefficient.log2 + 1) * (2 ^ (decimal.coefficient.log2 + 1100))⁻¹ *
        2 ^ 1074 :=
      mul_le_mul_of_nonneg_right (mul_le_mul coefficient.le power (by positivity) (by positivity))
        (by positivity)
    _ = (2 ^ 25)⁻¹ := by
      rw [show decimal.coefficient.log2 + 1100 = decimal.coefficient.log2 + 1 + 25 + 1074 by rfl,
        pow_add _ _ 1074, pow_add _ _ 25]
      field_simp
    _ < 1 / 2 := by norm_num

/-- Keeping the exponent within bounds changes a value only where it overflows before and
after, or is less than half a unit before and after. -/
theorem units_clamped_cases (decimal : Decimal) : decimal.clamped.units = decimal.units ∨
    (Magnitude.overflow : ℚ) ≤ decimal.clamped.units ∧ (Magnitude.overflow : ℚ) ≤ decimal.units ∨
    decimal.clamped.units < 1 / 2 ∧ decimal.units < 1 / 2 := by
  by_cases low : decimal.exponent < -(decimal.coefficient.log2 + 1100)
  · refine .inr (.inr ⟨units_lt_half ?_, units_lt_half low.le⟩)
    simp only [clamped, boundedExponent]
    omega
  by_cases high : 400 < decimal.exponent
  · by_cases zero : decimal.coefficient = 0
    · exact .inl (by simp only [units, toRat, clamped, zero, Nat.cast_zero, zero_mul])
    · refine .inr (.inl ⟨overflow_le_units zero ?_, overflow_le_units zero high.le⟩)
      simp only [clamped, boundedExponent]
      omega
  · have same : decimal.boundedExponent = decimal.exponent := by
      unfold boundedExponent
      omega
    exact .inl (by rw [clamped, same])

theorem nearest?_eq_some_iff {decimal : Decimal} {magnitude : Magnitude} :
    decimal.nearest? = some magnitude ↔ Magnitude.Nearest decimal.units magnitude := by
  have clamped : decimal.nearest? = some magnitude ↔
      Magnitude.Nearest decimal.clamped.units magnitude := by
    rw [units_eq_div, ← Magnitude.nearest?_eq_some_iff decimal.clamped.denominator_pos]
    rfl
  rw [clamped]
  obtain same | ⟨high, beyond⟩ | ⟨low, under⟩ := decimal.units_clamped_cases
  · rw [same]
  · exact iff_of_false (fun nearest => absurd nearest.bounded (not_lt.mpr high))
      (fun nearest => absurd nearest.bounded (not_lt.mpr beyond))
  · rw [Magnitude.nearest_iff_eq_zero decimal.clamped.units_nonneg low,
      Magnitude.nearest_iff_eq_zero decimal.units_nonneg under]

theorem nearest?_eq_none_iff {decimal : Decimal} :
    decimal.nearest? = none ↔ (Magnitude.overflow : ℚ) ≤ decimal.units := by
  have clamped : decimal.nearest? = none ↔ (Magnitude.overflow : ℚ) ≤ decimal.clamped.units := by
    rw [units_eq_div,
      ← Magnitude.nearest?_eq_none_iff_overflow decimal.clamped.denominator_pos]
    rfl
  have room : (1 : ℚ) / 2 < Magnitude.overflow := by
    have below : (Magnitude.zero.units + 1 : ℚ) ≤ Magnitude.overflow := by
      exact_mod_cast Magnitude.zero.units_lt_overflow
    have nonneg : (0 : ℚ) ≤ Magnitude.zero.units := Nat.cast_nonneg _
    linarith
  rw [clamped]
  obtain same | ⟨high, beyond⟩ | ⟨low, under⟩ := decimal.units_clamped_cases
  · rw [same]
  · exact iff_of_true high beyond
  · exact iff_of_false (not_le.mpr (low.trans room)) (not_le.mpr (under.trans room))

end Decimal
end PocketCalc
