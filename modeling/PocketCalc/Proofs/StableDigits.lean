import PocketCalc.Proofs.SignificantDigits

/-! Fourteen significant digits are stable: the magnitude nearest to a rounded value is rounded
to that value again. Where the digits are finer than the units, the magnitude itself is the
nearest. Everywhere else rounding to a magnitude moves the value by less than half a digit, and
by less than half a digit of the decade below should it leave the decade downwards. -/

namespace PocketCalc

namespace Decimal

private theorem toRat_mul_ten (coefficient : ℕ) (exponent : ℤ) :
    toRat ⟨10 * coefficient, exponent⟩ = toRat ⟨coefficient, exponent + 1⟩ := by
  rw [toRat, toRat, zpow_add_one₀ (by norm_num)]
  push_cast
  ring

private theorem trimmed_mul_ten (coefficient : ℕ) (exponent : ℤ) :
    trimmed (10 * coefficient) exponent = trimmed coefficient (exponent + 1) := by
  rw [trimmed]
  split
  next none =>
    obtain rfl : coefficient = 0 := by omega
    rw [trimmed, if_pos rfl]
  next some =>
    rw [if_pos (Nat.mul_mod_right 10 coefficient),
      Nat.mul_div_cancel_left coefficient (by decide)]

private theorem toRat_trimmed (coefficient : ℕ) (exponent : ℤ) :
    (trimmed coefficient exponent).toRat = toRat ⟨coefficient, exponent⟩ := by
  induction coefficient, exponent using trimmed.induct with
  | case1 exponent =>
    rw [trimmed, if_pos rfl]
    simp [toRat]
  | case2 coefficient exponent some even ih =>
    rw [trimmed, if_neg some, if_pos even, ih, ← toRat_mul_ten,
      Nat.mul_div_cancel' (Nat.dvd_of_mod_eq_zero even)]
  | case3 coefficient exponent some odd => rw [trimmed, if_neg some, if_neg odd]

theorem toRat_trim (decimal : Decimal) : decimal.trim.toRat = decimal.toRat :=
  toRat_trimmed decimal.coefficient decimal.exponent

theorem trim_mul_ten (coefficient : ℕ) (exponent : ℤ) :
    trim ⟨10 * coefficient, exponent⟩ = trim ⟨coefficient, exponent + 1⟩ :=
  trimmed_mul_ten coefficient exponent

end Decimal

private theorem step_natCast (place : ℕ) :
    step place = (10 ^ place * Magnitude.unitsPerOne : ℕ) := by
  rw [step, zpow_natCast, Nat.cast_mul, Nat.cast_pow, Nat.cast_ofNat]

theorem step_neg (place : ℕ) : step (-place) = Magnitude.unitsPerOne / (10 ^ place : ℕ) := by
  rw [step, zpow_neg, zpow_natCast, inv_mul_eq_div, Nat.cast_pow, Nat.cast_ofNat]

theorem step_le {place other : ℤ} (below : place ≤ other) : step place ≤ step other :=
  mul_le_mul_of_nonneg_right (zpow_le_zpow_right₀ (by norm_num) below) unitsPerOne_pos.le

/-- From the 324th decimal on, places are finer than a unit. -/
theorem step_lt_one {place : ℤ} (fine : place ≤ -324) : step place < 1 := by
  have numeric : Magnitude.unitsPerOne < 10 ^ 324 := by decide +kernel
  have least : step (-(324 : ℕ)) < 1 := by
    rw [step_neg, div_lt_one (by positivity)]
    exact Nat.cast_lt.mpr numeric
  exact (step_le fine).trans_lt least

/-- Up to the 323rd decimal, places are coarser than two units. -/
theorem two_lt_step {place : ℤ} (coarse : -323 ≤ place) : 2 < step place := by
  have numeric : 2 * 10 ^ 323 < Magnitude.unitsPerOne := by decide +kernel
  have most : 2 < step (-(323 : ℕ)) := by
    rw [step_neg, lt_div_iff₀ (by positivity)]
    exact_mod_cast numeric
  exact most.trans_le (step_le coarse)

private theorem step_succ (place : ℤ) : step (place + 1) = 10 * step place := by
  rw [← pow_one (10 : ℚ), ← step_add, Nat.cast_one]

namespace Magnitude

/-- The one power of ten whose distance to the nearest magnitude needs a calculation, because
half a digit of the decade below it is less than half a unit. -/
theorem exists_units_near_step : ∃ magnitude : Magnitude,
    |10 ^ 13 * step (-323) - magnitude.units| < 1 / 10 := by
  have numeric : 20240225330731 * 10 ^ 310 ≤ unitsPerOne ∧
      10 * unitsPerOne < (10 * 20240225330731 + 1) * 10 ^ 310 := by decide +kernel
  refine ⟨⟨20240225330731, 0, by decide, by decide, .inl rfl⟩, ?_⟩
  have place : 10 ^ 13 * step (-323) = unitsPerOne / (10 ^ 310 : ℕ) := by
    rw [← step_add, ← step_neg]
    rfl
  have units : units ⟨20240225330731, 0, by decide, by decide, .inl rfl⟩ = 20240225330731 := by
    decide
  have scale : (0 : ℚ) < (10 ^ 310 : ℕ) := by positivity
  have below : (20240225330731 : ℚ) ≤ unitsPerOne / (10 ^ 310 : ℕ) := by
    rw [le_div_iff₀ scale]
    exact_mod_cast numeric.1
  have above : (unitsPerOne / (10 ^ 310 : ℕ) : ℚ) < 20240225330731 + 1 / 10 := by
    rw [div_lt_iff₀ scale]
    have scaled : (10 * unitsPerOne : ℚ) < (10 * 20240225330731 + 1) * (10 ^ 310 : ℕ) := by
      exact_mod_cast numeric.2
    linarith
  rw [place, units, Nat.cast_ofNat, abs_of_nonneg (sub_nonneg.mpr below)]
  linarith

variable {magnitude other : Magnitude}

/-- The magnitude is less than half a digit away from the rounded value it is nearest to. -/
theorem Nearest.distance_lt {whole : ℕ} {place : ℤ} (coarse : -323 ≤ place)
    (bounded : whole ≤ 10 ^ 14) (nearest : Nearest (whole * step place) other) :
    |other.units - whole * step place| < step place / 2 := by
  have positive := step_pos place
  have distance := nearest.distance_le (by positivity)
  have unit := two_lt_step coarse
  have most : (whole : ℚ) * step place ≤ 10 ^ 14 * step place :=
    mul_le_mul_of_nonneg_right (by exact_mod_cast bounded) positive.le
  rw [abs_sub_comm]
  refine distance.trans_lt (max_lt ?_ ?_)
  · linarith
  · rw [div_lt_iff₀ (by positivity)]
    linarith

/-- At the least of its decade the rounded value is closer still. -/
theorem Nearest.distance_lt_below {place : ℤ} (coarse : -323 ≤ place)
    (nearest : Nearest (10 ^ 13 * step place) other) :
    |other.units - 10 ^ 13 * step place| < step place / 20 := by
  have positive := step_pos place
  rw [abs_sub_comm]
  obtain rfl | coarser := coarse.eq_or_lt
  · obtain ⟨candidate, close⟩ := exists_units_near_step
    have unit := two_lt_step coarse
    have certain := Nearest.of_lt (close.trans (by norm_num))
    obtain rfl := certain.unique (by positivity) nearest
    exact close.trans (by linarith)
  · have unit : 20 < step place := by
      have above : step (-323 + 1) ≤ step place := step_le coarser
      have least := two_lt_step (le_refl (-323))
      rw [step_succ] at above
      linarith
    refine (nearest.distance_le (by positivity)).trans_lt (max_lt ?_ ?_)
    · linarith
    · rw [div_lt_iff₀ (by positivity)]
      linarith

private theorem lt_of_mul_unit_lt {whole bound : ℕ} {unit : ℚ} (positive : 0 < unit)
    (less : whole * unit < bound * unit) : whole < bound :=
  Nat.cast_lt.mp (lt_of_mul_lt_mul_right less positive.le)

/-- Below its decade the rounded value is written with one more digit. -/
theorem significant_of_below {whole : ℕ} {place : ℤ} (coarse : -323 ≤ place)
    (least : 10 ^ 13 ≤ whole) (nearest : Nearest (whole * step place) other)
    (near : |other.units - whole * step place| < step place / 2)
    (below : other.units < 10 ^ 13 * step place) :
    (other.significant 14).trim = Decimal.trim ⟨whole, place⟩ := by
  have whole_lt : whole < 10 ^ 13 + 1 := by
    have left := (abs_lt.mp near).1
    apply lt_of_mul_unit_lt (step_pos place)
    push_cast
    linarith
  obtain rfl : whole = 10 ^ 13 := le_antisymm (Nat.lt_succ_iff.mp whole_lt) least
  rw [Nat.cast_pow, Nat.cast_ofNat] at nearest
  obtain ⟨left, right⟩ := abs_lt.mp (nearest.distance_lt_below coarse)
  have unit := step_pos place
  obtain ⟨lower, rfl⟩ : ∃ lower, place = lower + 1 := ⟨place - 1, by omega⟩
  rw [step_succ] at left right below unit
  have inside : (other.units : ℚ) < 10 ^ 14 * step lower := by linarith
  have digits : other.significant 14 = ⟨10 * 10 ^ 13, lower⟩ := by
    refine significant_eq 13 (by linarith) inside (abs_lt.mpr ?_)
    push_cast
    exact ⟨by linarith, by linarith⟩
  rw [digits, Decimal.trim_mul_ten]

/-- Above its decade the rounded value is written with one digit less. -/
theorem significant_of_above {whole : ℕ} {place : ℤ} (most : whole ≤ 10 ^ 14)
    (near : |other.units - whole * step place| < step place / 2)
    (above : 10 ^ 14 * step place ≤ other.units) :
    (other.significant 14).trim = Decimal.trim ⟨whole, place⟩ := by
  obtain ⟨left, right⟩ := abs_lt.mp near
  have unit := step_pos place
  have whole_gt : 10 * 10 ^ 13 < whole + 1 := by
    apply lt_of_mul_unit_lt unit
    push_cast
    linarith
  obtain rfl : whole = 10 * 10 ^ 13 := le_antisymm most (Nat.lt_succ_iff.mp whole_gt)
  push_cast at left right
  have inside : (other.units : ℚ) < 10 ^ 14 * step (place + 1) := by
    rw [step_succ]
    linarith
  have digits : other.significant 14 = ⟨10 ^ 13, place + 1⟩ := by
    refine significant_eq 13 ?_ inside (abs_lt.mpr ?_)
    all_goals rw [step_succ]
    · linarith
    · push_cast
      exact ⟨by linarith, by linarith⟩
  rw [digits, Decimal.trim_mul_ten]

private theorem significant_stable_of_coarse (positive : 0 < magnitude.units)
    (coarse : -323 ≤ magnitude.lastPlace 14)
    (nearest : Nearest (magnitude.significant 14).units other) :
    (other.significant 14).trim = (magnitude.significant 14).trim := by
  obtain ⟨least, most⟩ := significant_coefficient_bounds 13 positive
  rw [Decimal.units_eq] at nearest
  obtain ⟨whole, same⟩ :
      ∃ whole, magnitude.significant 14 = ⟨whole, magnitude.lastPlace 14⟩ := ⟨_, rfl⟩
  rw [same] at least most nearest ⊢
  dsimp only at least most nearest
  have near := nearest.distance_lt coarse most
  obtain below | inside := lt_or_ge (other.units : ℚ) (10 ^ 13 * step (magnitude.lastPlace 14))
  · exact significant_of_below coarse least nearest near below
  obtain above | outside := lt_or_ge (other.units : ℚ) (10 ^ 14 * step (magnitude.lastPlace 14))
  · rw [significant_eq 13 inside above near]
  · exact significant_of_above most near outside

theorem significant_of_zero (zero : magnitude.units = 0) (count : ℕ) :
    (magnitude.significant count).units = 0 := by
  have positive := step_pos (magnitude.lastPlace count)
  have none : magnitude.significant count = ⟨0, magnitude.lastPlace count⟩ := by
    refine toPlace_eq ?_
    rw [zero, Nat.cast_zero, zero_mul, sub_zero, abs_zero]
    exact half_pos positive
  rw [none, Decimal.units_eq, Nat.cast_zero, zero_mul]

/-- Reading back what the significant digits denote gives the same digits. -/
theorem significant_stable
    (nearest : Nearest (magnitude.significant significantDigits).units other) :
    (other.significant significantDigits).trim = (magnitude.significant significantDigits).trim := by
  unfold significantDigits at *
  have itself (close : |(magnitude.significant 14).units - magnitude.units| < 1 / 2) :
      (other.significant 14).trim = (magnitude.significant 14).trim := by
    rw [(Nearest.of_lt close).unique (Decimal.units_nonneg _) nearest]
  obtain zero | positive := Nat.eq_zero_or_pos magnitude.units
  · apply itself
    rw [significant_of_zero zero, zero, Nat.cast_zero, sub_zero, abs_zero]
    norm_num
  obtain fine | coarse := le_or_gt (magnitude.lastPlace 14) (-324)
  · -- The rounded value is less than half a unit away from the magnitude it came from.
    apply itself
    have near := significant_near magnitude 14
    have small := step_lt_one fine
    rw [abs_sub_comm]
    linarith
  · exact significant_stable_of_coarse positive coarse nearest

private theorem overflow_lt : 10 * (overflow : ℚ) < 179769313486232 * step (295 : ℕ) := by
  have numeric : 10 * overflow < 179769313486232 * (10 ^ 295 * unitsPerOne) := by decide +kernel
  rw [step_natCast]
  exact_mod_cast numeric

private theorem lt_overflow : 17976931348623 * step (295 : ℕ) < overflow := by
  have numeric : 17976931348623 * (10 ^ 295 * unitsPerOne) < overflow := by decide +kernel
  rw [step_natCast]
  exact_mod_cast numeric

/-- Rounding to significant digits does not overflow: the largest magnitude is rounded down. -/
theorem significant_units_lt_overflow (magnitude : Magnitude) :
    (magnitude.significant 14).units < overflow := by
  have bounded : (magnitude.units : ℚ) < overflow :=
    Nat.cast_lt.mpr (Nat.lt_of_succ_le magnitude.units_lt_overflow)
  have below := overflow_lt
  have above := lt_overflow
  obtain zero | positive := Nat.eq_zero_or_pos magnitude.units
  · rw [significant_of_zero zero]
    exact (Nat.cast_nonneg _).trans_lt bounded
  have least := (lastPlace_bounds 13 positive).1
  have most := (significant_coefficient_bounds 13 positive).2
  have near := (abs_le.mp (significant_near magnitude 14)).1
  obtain ⟨whole, same⟩ :
      ∃ whole, magnitude.significant 14 = ⟨whole, magnitude.lastPlace 14⟩ := ⟨_, rfl⟩
  rw [same, Decimal.units_eq] at near
  rw [same] at most
  rw [same, Decimal.units_eq]
  dsimp only at near most least ⊢
  generalize magnitude.lastPlace 14 = place at *
  have unit := step_pos place
  obtain less | rfl | more := lt_trichotomy place (295 : ℕ)
  · have smaller : step (place + 1) ≤ step (295 : ℕ) := step_le less
    have most : (whole : ℚ) * step place ≤ (10 ^ (13 + 1) : ℕ) * step place :=
      mul_le_mul_of_nonneg_right (Nat.cast_le.mpr most) unit.le
    rw [step_succ] at smaller
    push_cast at most
    linarith
  · -- In the last decade the bound on the magnitude bounds the digits as well.
    generalize step (295 : ℕ) = last at *
    have whole_lt : whole < 17976931348623 + 1 := by
      apply lt_of_mul_unit_lt unit
      push_cast
      linarith
    have whole_le : (whole : ℚ) ≤ (17976931348623 : ℕ) := Nat.cast_le.mpr (Nat.lt_succ_iff.mp whole_lt)
    exact (mul_le_mul_of_nonneg_right whole_le unit.le).trans_lt above
  · have larger : step ((295 : ℕ) + 1) ≤ step place := step_le more
    rw [step_succ] at larger
    linarith

theorem exists_nearest_significant (magnitude : Magnitude) :
    ∃ other, Nearest (magnitude.significant significantDigits).units other :=
  exists_nearest (Decimal.units_nonneg _) (significant_units_lt_overflow magnitude)

end Magnitude

end PocketCalc
