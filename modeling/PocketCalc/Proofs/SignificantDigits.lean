import PocketCalc.Display.Canonical
import PocketCalc.Proofs.DecimalValue
import Mathlib.Data.Int.Log
import Mathlib.Data.Rat.Floor

/-! The significant digits of a magnitude, and that they survive being read back: the nearest
magnitude to the rounded value is rounded to the same digits. Values are counted in units. -/

namespace PocketCalc

theorem log_eq_of_bounds {value : ℚ} {place : ℤ} (below : (10 : ℚ) ^ place ≤ value)
    (above : value < 10 ^ (place + 1)) : Int.log 10 value = place := by
  have positive : 0 < value := lt_of_lt_of_le (zpow_pos (by norm_num) place) below
  have least := (Int.zpow_le_iff_le_log (b := 10) (by decide) positive).mp below
  have most := (Int.lt_zpow_iff_log_lt (b := 10) (by decide) positive).mp above
  omega

private theorem length_toDigits_bounds {number : ℕ} (positive : 0 < number) :
    10 ^ ((Nat.toDigits 10 number).length - 1) ≤ number ∧
      number < 10 ^ (Nat.toDigits 10 number).length := by
  have length := Nat.length_toDigits_pos (b := 10) (n := number)
  refine ⟨?_, (Nat.length_toDigits_le_iff (by decide) length).mp le_rfl⟩
  by_contra less
  obtain single | several := Nat.eq_zero_or_pos ((Nat.toDigits 10 number).length - 1)
  · rw [single, pow_zero] at less
    exact less positive
  · have shorter := (Nat.length_toDigits_le_iff (by decide) several).mpr (not_le.mp less)
    omega

private theorem firstPlace_eq_log {numerator denominator : ℕ} (positive : 0 < numerator)
    (nonzero : 0 < denominator) :
    firstPlace numerator denominator = Int.log 10 (numerator / denominator : ℚ) := by
  symm
  have scale : (0 : ℚ) < denominator := by exact_mod_cast nonzero
  unfold firstPlace
  split
  next whole =>
    obtain ⟨below, above⟩ := length_toDigits_bounds (Nat.div_pos whole nonzero)
    have length := Nat.length_toDigits_pos (b := 10) (n := numerator / denominator)
    generalize (Nat.toDigits 10 (numerator / denominator)).length = length at *
    obtain ⟨place, rfl⟩ := Nat.exists_eq_add_one.mpr length
    rw [Nat.le_div_iff_mul_le nonzero, Nat.add_sub_cancel] at below
    rw [Nat.div_lt_iff_lt_mul nonzero] at above
    rw [Nat.cast_add_one, add_sub_cancel_right]
    refine log_eq_of_bounds ?_ ?_
    · rw [le_div_iff₀ scale, zpow_natCast]
      exact_mod_cast below
    · rw [div_lt_iff₀ scale, ← Nat.cast_add_one, zpow_natCast]
      exact_mod_cast above
  next fraction =>
    have quotient : 0 < (denominator - 1) / numerator := Nat.div_pos (by omega) positive
    obtain ⟨below, above⟩ := length_toDigits_bounds quotient
    have length := Nat.length_toDigits_pos (b := 10) (n := (denominator - 1) / numerator)
    generalize (Nat.toDigits 10 ((denominator - 1) / numerator)).length = length at *
    obtain ⟨place, rfl⟩ := Nat.exists_eq_add_one.mpr length
    rw [Nat.le_div_iff_mul_le positive, Nat.add_sub_cancel] at below
    rw [Nat.div_lt_iff_lt_mul positive] at above
    have smaller : 10 ^ place * numerator < denominator := by omega
    have larger : denominator ≤ 10 ^ (place + 1) * numerator := by omega
    refine log_eq_of_bounds ?_ ?_
    · rw [le_div_iff₀ scale, zpow_neg, zpow_natCast, inv_mul_le_iff₀ (by positivity)]
      exact_mod_cast larger
    · rw [div_lt_iff₀ scale, show -((place + 1 : ℕ) : ℤ) + 1 = -(place : ℤ) by omega, zpow_neg,
        zpow_natCast, lt_inv_mul_iff₀ (by positivity)]
      exact_mod_cast smaller

/-- One of a decimal place, in units of the binary format. -/
def step (place : ℤ) : ℚ := 10 ^ place * Magnitude.unitsPerOne

theorem unitsPerOne_pos : (0 : ℚ) < Magnitude.unitsPerOne := by
  rw [Magnitude.unitsPerOne_cast]
  positivity

theorem step_pos (place : ℤ) : 0 < step place :=
  mul_pos (zpow_pos (by norm_num) place) unitsPerOne_pos

theorem step_add (place : ℤ) (digits : ℕ) : step (place + digits) = 10 ^ digits * step place := by
  rw [step, step, zpow_add₀ (by norm_num), zpow_natCast]
  ring

theorem Decimal.units_eq (decimal : Decimal) :
    decimal.units = decimal.coefficient * step decimal.exponent := by
  rw [units, toRat, step, mul_assoc]

namespace Magnitude

def toRat (magnitude : Magnitude) : ℚ := magnitude.units / unitsPerOne

theorem toRat_nonneg (magnitude : Magnitude) : 0 ≤ magnitude.toRat :=
  div_nonneg (Nat.cast_nonneg _) (Nat.cast_nonneg _)

theorem toRat_eq (magnitude : Magnitude) :
    magnitude.toRat = magnitude.significand * 2 ^ ((magnitude.exponent : ℤ) - 1074) := by
  rw [toRat, units_eq, unitsPerOne_cast, Nat.cast_mul, Nat.cast_pow, Nat.cast_ofNat,
    zpow_sub₀ (by norm_num), zpow_natCast, zpow_ofNat, mul_div_assoc]

theorem units_div_step (magnitude : Magnitude) (place : ℤ) :
    magnitude.units / step place = magnitude.toRat / 10 ^ place := by
  rw [step, toRat, div_div, mul_comm]

theorem step_le_units_iff (magnitude : Magnitude) (place : ℤ) :
    step place ≤ magnitude.units ↔ (10 : ℚ) ^ place ≤ magnitude.toRat := by
  rw [step, toRat, le_div_iff₀ unitsPerOne_pos]

theorem units_lt_step_iff (magnitude : Magnitude) (place : ℤ) :
    magnitude.units < step place ↔ magnitude.toRat < (10 : ℚ) ^ place := by
  rw [step, toRat, div_lt_iff₀ unitsPerOne_pos]

theorem toPlace_rounds (magnitude : Magnitude) (tie : Tie) (place : ℤ) :
    tie.Rounds (magnitude.units / step place) (magnitude.toPlace tie place).coefficient := by
  have positive : 0 < placeDenominator place :=
    Nat.mul_pos (Nat.cast_pos.mp unitsPerOne_pos) (Nat.pow_pos (by decide))
  have quotient : (magnitude.placeNumerator place : ℚ) / placeDenominator place =
      magnitude.units / step place := by
    have power : (10 : ℚ) ^ place = 10 ^ place.toNat / 10 ^ (-place).toNat := by
      rw [← zpow_natCast, ← zpow_natCast, ← zpow_sub₀ (by norm_num)]
      congr 1
      omega
    rw [placeNumerator, placeDenominator, step, power, Nat.pow_eq, Nat.pow_eq, Nat.cast_mul,
      Nat.cast_mul, Nat.cast_pow, Nat.cast_pow, Nat.cast_ofNat]
    generalize (unitsPerOne : ℚ) = one
    field_simp
  have rounds := Tie.round_rounds tie (magnitude.placeNumerator place) positive
  rw [quotient] at rounds
  simpa only [toPlace] using rounds

variable {magnitude : Magnitude} {digits : ℕ}

private theorem step_lastPlace (digits : ℕ) (positive : 0 < magnitude.units) :
    10 ^ digits * step (magnitude.lastPlace (digits + 1)) =
      step (Int.log 10 (magnitude.units / unitsPerOne : ℚ)) := by
  rw [← step_add, lastPlace, firstPlace_eq_log positive (Nat.cast_pos.mp unitsPerOne_pos)]
  congr 1
  omega

/-- The last of some digits stands where one of its place fits that often into the magnitude. -/
theorem lastPlace_bounds (digits : ℕ) (positive : 0 < magnitude.units) :
    10 ^ digits * step (magnitude.lastPlace (digits + 1)) ≤ magnitude.units ∧
      magnitude.units < 10 ^ (digits + 1) * step (magnitude.lastPlace (digits + 1)) := by
  have quotient : (0 : ℚ) < magnitude.units / unitsPerOne :=
    div_pos (Nat.cast_pos.mpr positive) unitsPerOne_pos
  rw [pow_succ', mul_assoc, step_lastPlace digits positive]
  constructor
  · rw [step, ← le_div_iff₀ unitsPerOne_pos]
    exact Int.zpow_log_le_self (by decide) quotient
  · rw [step, ← mul_assoc, ← div_lt_iff₀ unitsPerOne_pos, mul_comm, ← zpow_add_one₀ (by norm_num)]
    exact Int.lt_zpow_succ_log_self (by decide) _

private theorem lastPlace_eq {place : ℤ} (below : 10 ^ digits * step place ≤ magnitude.units)
    (above : magnitude.units < 10 ^ (digits + 1) * step place) :
    magnitude.lastPlace (digits + 1) = place := by
  have positive : 0 < magnitude.units := by
    have least : 0 < 10 ^ digits * step place := mul_pos (by positivity) (step_pos place)
    exact Nat.cast_pos.mp (least.trans_le below)
  rw [← step_add, step, ← le_div_iff₀ unitsPerOne_pos] at below
  rw [← step_add, step, ← div_lt_iff₀ unitsPerOne_pos, Nat.cast_add_one, ← add_assoc] at above
  rw [lastPlace, firstPlace_eq_log positive (Nat.cast_pos.mp unitsPerOne_pos),
    log_eq_of_bounds below above]
  omega

theorem toPlace_eq {tie : Tie} {place : ℤ} {whole : ℕ}
    (near : |magnitude.units - whole * step place| < step place / 2) :
    magnitude.toPlace tie place = ⟨whole, place⟩ := by
  have positive := step_pos place
  have close : |magnitude.units / step place - whole| < 1 / 2 := by
    rw [abs_sub_mul positive] at near
    exact lt_of_mul_lt_mul_right (near.trans_eq (by ring)) positive.le
  have same := (Tie.Rounds.of_lt close).unique (toPlace_rounds magnitude tie place)
  rw [← same, toPlace]

theorem significant_eq (digits : ℕ) {place : ℤ} {whole : ℕ} (below : 10 ^ digits * step place ≤ magnitude.units)
    (above : magnitude.units < 10 ^ (digits + 1) * step place)
    (near : |magnitude.units - whole * step place| < step place / 2) :
    magnitude.significant (digits + 1) = ⟨whole, place⟩ := by
  rw [significant, lastPlace_eq below above, toPlace_eq near]

theorem toPlace_near (magnitude : Magnitude) (tie : Tie) (place : ℤ) :
    |magnitude.units - (magnitude.toPlace tie place).units| ≤ step place / 2 := by
  have positive := step_pos place
  have near := (toPlace_rounds magnitude tie place).near
  have units : (magnitude.toPlace tie place).units =
      (magnitude.toPlace tie place).coefficient * step place := Decimal.units_eq _
  rw [units, abs_sub_mul positive]
  exact (mul_le_mul_of_nonneg_right near positive.le).trans_eq (by ring)

theorem significant_near (magnitude : Magnitude) (count : ℕ) :
    |magnitude.units - (magnitude.significant count).units| ≤
      step (magnitude.lastPlace count) / 2 :=
  magnitude.toPlace_near .toEven (magnitude.lastPlace count)

/-- Rounding to some digits may carry into one more. -/
theorem significant_coefficient_bounds (digits : ℕ) (positive : 0 < magnitude.units) :
    10 ^ digits ≤ (magnitude.significant (digits + 1)).coefficient ∧
      (magnitude.significant (digits + 1)).coefficient ≤ 10 ^ (digits + 1) := by
  have unit := step_pos (magnitude.lastPlace (digits + 1))
  obtain ⟨below, above⟩ := lastPlace_bounds digits positive
  have near := abs_le.mp
    (toPlace_rounds magnitude .toEven (magnitude.lastPlace (digits + 1))).near
  rw [← le_div_iff₀ unit] at below
  rw [← div_lt_iff₀ unit] at above
  change _ ≤ (magnitude.toPlace .toEven (magnitude.lastPlace (digits + 1))).coefficient ∧
    (magnitude.toPlace .toEven (magnitude.lastPlace (digits + 1))).coefficient ≤ _
  generalize (magnitude.toPlace .toEven (magnitude.lastPlace (digits + 1))).coefficient = whole at *
  generalize (magnitude.units / step (magnitude.lastPlace (digits + 1)) : ℚ) = exact at *
  have least : ((10 ^ digits : ℕ) : ℚ) < (whole + 1 : ℕ) := by
    push_cast
    linarith
  have most : (whole : ℚ) < ((10 ^ (digits + 1) + 1 : ℕ) : ℚ) := by
    push_cast
    linarith
  exact ⟨Nat.lt_succ_iff.mp (Nat.cast_lt.mp least), Nat.lt_succ_iff.mp (Nat.cast_lt.mp most)⟩

end Magnitude
end PocketCalc
