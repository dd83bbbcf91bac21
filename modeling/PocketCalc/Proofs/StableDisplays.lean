import PocketCalc.Proofs.DisplayedNumbers
import Mathlib.Data.Nat.Prime.Basic

/-! Displaying what is displayed changes nothing. Reading it back leads to a magnitude that is
at least as near to the displayed decimal as the first one, so it is rounded to that decimal
too. The exception would be a magnitude a half above where the first was a half below: their
difference would be one in the last place, which is a whole number of units only for the place
of the ones, and there a whole number is read as itself. -/

namespace PocketCalc

/-- One in the last place apart, the two values can be on different sides of a tie. -/
theorem Tie.Rounds.of_nearer {exact other : ℚ} {whole : ℕ} (rounds : Tie.up.Rounds exact whole)
    (nearer : |other - whole| ≤ |exact - whole|) (apart : other ≠ exact + 1) :
    Tie.up.Rounds other whole := by
  refine ⟨nearer.trans rounds.near, fun tied => ?_⟩
  have half : |exact - whole| = 1 / 2 := le_antisymm rounds.near (tied ▸ nearer)
  have below : exact < whole := rounds.tied half
  rw [abs_of_neg (sub_neg.mpr below)] at half
  obtain above | under := (abs_eq (by norm_num)).mp tied
  · exact absurd (by linarith) apart
  · change other < whole
    linarith

namespace Magnitude

variable {magnitude other : Magnitude}

private theorem odd_lt_of_units {odd exponent : ℕ} (isOdd : odd % 2 = 1)
    (same : magnitude.units = odd * 2 ^ exponent) : odd < 2 ^ 53 := by
  have small := magnitude.significand_lt
  rw [units_eq] at same
  obtain less | more := lt_or_ge exponent magnitude.exponent
  · obtain ⟨gap, power⟩ := Nat.exists_eq_add_of_lt less
    rw [power, add_assoc, pow_add, mul_comm (2 ^ exponent), ← mul_assoc] at same
    have equal := Nat.eq_of_mul_eq_mul_right (by positivity) same
    rw [pow_succ, ← mul_assoc] at equal
    omega
  · obtain ⟨gap, power⟩ := Nat.exists_eq_add_of_le more
    rw [power, pow_add, mul_comm (2 ^ magnitude.exponent), ← mul_assoc] at same
    have equal := Nat.eq_of_mul_eq_mul_right (by positivity) same
    have : odd * 1 ≤ odd * 2 ^ gap := Nat.mul_le_mul_left _ Nat.one_le_two_pow
    omega

/-- The exponent is large, and nothing below depends on it. -/
theorem exists_unitsPerOne : ∃ exponent, unitsPerOne = 2 ^ (exponent + 1) := by
  have successor (most : ℕ) (positive : 0 < most) :
      ∃ exponent, Nat.pow 2 most = 2 ^ (exponent + 1) := by
    obtain ⟨exponent, rfl⟩ := Nat.exists_eq_add_one.mpr positive
    exact ⟨exponent, rfl⟩
  unfold unitsPerOne
  apply successor
  decide

/-- A whole number is not read as the number halfway to the next one. -/
theorem Nearest.units_ne_halfway {whole : ℕ} (nearest : Nearest (whole * unitsPerOne) other) :
    (other.units : ℚ) ≠ (whole + 1 / 2) * unitsPerOne := by
  intro halfway
  obtain ⟨exponent, power⟩ := exists_unitsPerOne
  have distance := nearest.distance_le (mul_nonneg (Nat.cast_nonneg _) unitsPerOne_pos.le)
  rw [power, pow_succ', Nat.cast_mul, Nat.cast_ofNat] at halfway distance
  have odd : other.units = (2 * whole + 1) * 2 ^ exponent := by
    have cast : (other.units : ℚ) = ((2 * whole + 1) * 2 ^ exponent : ℕ) := by
      rw [halfway]
      push_cast
      ring
    exact Nat.cast_injective cast
  have small : 2 * whole + 1 < 2 ^ 53 := odd_lt_of_units (by omega) odd
  have bounded : (2 * whole + 1 : ℚ) < 2 ^ 53 := by exact_mod_cast small
  have half : (1 : ℚ) ≤ (2 ^ exponent : ℕ) := by exact_mod_cast Nat.one_le_two_pow
  generalize ((2 ^ exponent : ℕ) : ℚ) = unit at *
  have difference : whole * (2 * unit) - other.units = -unit := by
    rw [halfway]
    ring
  have closer : whole * (2 * unit) / 2 ^ 53 < unit := by
    rw [div_lt_iff₀ (by positivity)]
    calc whole * (2 * unit) = 2 * whole * unit := by ring
      _ < 2 ^ 53 * unit := mul_lt_mul_of_pos_right (by linarith) (by linarith)
      _ = unit * 2 ^ 53 := mul_comm _ _
  rw [difference, abs_neg, abs_of_pos (by linarith)] at distance
  exact absurd distance (not_le.mpr (max_lt (by linarith) closer))

/-- Powers of two have no factor of five. -/
theorem eq_zero_of_units_mul {places difference : ℕ}
    (same : difference * 10 ^ places = unitsPerOne) : places = 0 := by
  by_contra fractional
  have five : 5 ∣ 10 ^ places := (by decide : 5 ∣ 10).trans (dvd_pow_self 10 fractional)
  obtain ⟨exponent, power⟩ := exists_unitsPerOne
  rw [power] at same
  have divides : 5 ∣ 2 ^ (exponent + 1) := (five.mul_left difference).trans (dvd_of_eq same)
  exact absurd (Nat.Prime.dvd_of_dvd_pow Nat.prime_five divides) (by decide)

/-- Two magnitudes are one apart in a place only if that is the place of the ones. -/
theorem eq_zero_of_units_eq_add_step {places : ℕ}
    (gap : (other.units : ℚ) = magnitude.units + step (-places)) : places = 0 := by
  have unit := step_pos (-places)
  have more : magnitude.units ≤ other.units := Nat.cast_le.mp (by linarith : (_ : ℚ) ≤ _)
  rw [step_neg, ← sub_eq_iff_eq_add', eq_div_iff (by positivity), ← Nat.cast_sub more,
    ← Nat.cast_mul] at gap
  exact eq_zero_of_units_mul (Nat.cast_injective gap)

/-- Reading a rounded value does not lead from half below it to half above it. -/
theorem Nearest.units_ne_next {whole places : ℕ} (nearest : Nearest (whole * step (-places)) other)
    (near : other.units / step (-places) - whole ≤ 1 / 2)
    (far : -(1 / 2) ≤ magnitude.units / step (-places) - whole) :
    other.units / step (-places) ≠ magnitude.units / step (-places) + 1 := by
  intro next
  have unit := step_pos (-places)
  have gap : (other.units : ℚ) = magnitude.units + step (-places) := by
    rw [div_eq_iff unit.ne', add_mul, div_mul_cancel₀ _ unit.ne', one_mul] at next
    exact next
  obtain rfl := eq_zero_of_units_eq_add_step gap
  have one : step (-(0 : ℕ)) = unitsPerOne := by
    rw [step_neg, pow_zero, Nat.cast_one, div_one]
  rw [one] at nearest near far next unit
  apply nearest.units_ne_halfway
  rw [← div_eq_iff unit.ne']
  linarith

/-- The magnitude that the rounded value is read as is rounded to it again. -/
theorem Nearest.toPlace_eq {places : ℕ}
    (nearest : Nearest (magnitude.toPlace .up (-places)).units other) :
    other.toPlace .up (-places) = magnitude.toPlace .up (-places) := by
  have rounds := toPlace_rounds magnitude .up (-places)
  have unit := step_pos (-places)
  obtain ⟨whole, same⟩ : ∃ whole, magnitude.toPlace .up (-places) = ⟨whole, -places⟩ := ⟨_, rfl⟩
  rw [same, Decimal.units_eq] at nearest
  rw [same] at rounds ⊢
  dsimp only at rounds nearest
  have nearer : |other.units / step (-places) - whole| ≤
      |magnitude.units / step (-places) - whole| := by
    have near := nearest.near magnitude
    rw [abs_sub_comm, abs_sub_mul unit, abs_sub_comm _ (magnitude.units : ℚ),
      abs_sub_mul unit] at near
    exact le_of_mul_le_mul_right near unit
  have near := (abs_le.mp (nearer.trans rounds.near)).2
  have far := (abs_le.mp rounds.near).1
  have again := (rounds.of_nearer nearer (nearest.units_ne_next near far)).unique
    (toPlace_rounds other .up (-places))
  simp only [toPlace] at again ⊢
  rw [again]

/-- From fifty-two bits before the point on there is no fraction. -/
theorem exists_whole (large : 2 ^ 52 ≤ magnitude.toRat) : ∃ whole : ℕ, magnitude.toRat = whole := by
  have scale := unitsPerOne_pos
  obtain ⟨exponent, power⟩ := exists_unitsPerOne
  have least : 2 ^ 52 * 2 ^ (exponent + 1) ≤ magnitude.significand * 2 ^ magnitude.exponent := by
    rw [toRat, le_div_iff₀ scale, power, units_eq] at large
    exact_mod_cast large
  obtain less | more := lt_or_ge exponent magnitude.exponent
  · obtain ⟨gap, sum⟩ := Nat.exists_eq_add_of_lt less
    have units : magnitude.units = magnitude.significand * 2 ^ gap * unitsPerOne := by
      rw [power, units_eq, sum]
      ring
    refine ⟨magnitude.significand * 2 ^ gap, ?_⟩
    rw [toRat, units, Nat.cast_mul _ unitsPerOne, mul_div_cancel_right₀ _ scale.ne']
  · have most : magnitude.significand * 2 ^ magnitude.exponent < 2 ^ 53 * 2 ^ exponent :=
      Nat.mul_lt_mul_of_lt_of_le magnitude.significand_lt
        (Nat.pow_le_pow_right (by decide) more) (Nat.two_pow_pos _)
    rw [pow_succ 2 exponent] at least
    omega

theorem toRat_shown (magnitude : Magnitude) (places : ℕ) :
    (magnitude.shown (some places)).toRat = magnitude.atPlaces places := by
  obtain ⟨decimal, trimmed, value, -⟩ := magnitude.exists_shown places
  rw [trimmed, Decimal.toRat_trim, value]

private theorem shown_near (magnitude : Magnitude) (places : ℕ) :
    |magnitude.units - (magnitude.shown (some places)).units| ≤ unitsPerOne / 2 := by
  have near := magnitude.toPlace_near .up (-(min places 1074 : ℕ))
  have unit : step (-(min places 1074 : ℕ)) ≤ step 0 := step_le (by omega)
  have one : step 0 = unitsPerOne := by rw [step, zpow_zero, one_mul]
  rw [shown, Decimal.units, Decimal.toRat_trim, ← Decimal.units]
  linarith

/-- What a small rounded value is read as is below the threshold. -/
theorem exists_nearest_shown (small : magnitude.toRat < 2 ^ 52) (places : ℕ) :
    ∃ other, Nearest (magnitude.shown (some places)).units other ∧ other.toRat < 10 ^ 16 := by
  have scale := unitsPerOne_pos
  have numeric : (2 ^ 52 + 1) * unitsPerOne ≤ overflow := by decide +kernel
  have room : ((2 ^ 52 + 1) * unitsPerOne : ℚ) ≤ overflow := by exact_mod_cast numeric
  have near := magnitude.shown_near places
  have below := (abs_le.mp near).1
  rw [toRat, div_lt_iff₀ scale] at small
  obtain ⟨other, nearest⟩ := exists_nearest (Decimal.units_nonneg (magnitude.shown (some places)))
    (by linarith)
  have closer := nearest.near magnitude
  rw [abs_sub_comm _ (magnitude.units : ℚ)] at closer
  have beyond := (abs_le.mp (closer.trans near)).1
  refine ⟨other, nearest, ?_⟩
  rw [toRat, div_lt_iff₀ scale]
  linarith

/-- A number displayed as zero has lost its sign already. -/
theorem display_sign (magnitude : Magnitude) (negative : Bool) (precision : Option ℕ) :
    magnitude.display (negative && (magnitude.displayed precision).coefficient != 0) precision =
      magnitude.display negative precision := by
  obtain small | large := lt_or_ge magnitude.toRat (10 ^ 16)
  · rw [displayed_of_small small, display_of_small small, display_of_small small, Bool.and_assoc,
      Bool.and_self]
  · rw [displayed_of_large large, bne_iff_ne.mpr (shortest_ne_zero_of_large large), Bool.and_true]

/-- What is displayed is read as a magnitude that is displayed like the first one. -/
theorem exists_same_display (magnitude : Magnitude) (precision : Option ℕ) : ∃ other,
    Nearest (magnitude.displayed precision).units other ∧
      ∀ negative, other.display negative precision = magnitude.display negative precision := by
  have itself (exact : Nearest (magnitude.displayed precision).units magnitude) : ∃ other,
      Nearest (magnitude.displayed precision).units other ∧
        ∀ negative, other.display negative precision = magnitude.display negative precision :=
    ⟨magnitude, exact, fun _ => rfl⟩
  obtain small | large := lt_or_ge magnitude.toRat (10 ^ 16)
  · cases precision with
    | none =>
      apply itself
      rw [displayed_none]
      exact magnitude.nearest_shortest
    | some places =>
      obtain fractional | whole := lt_or_ge magnitude.toRat (2 ^ 52)
      · obtain ⟨other, nearest, below⟩ := exists_nearest_shown fractional places
        have same : other.shown (some places) = magnitude.shown (some places) := by
          rw [shown, Decimal.units, Decimal.toRat_trim, ← Decimal.units] at nearest
          rw [shown, shown, nearest.toPlace_eq]
        refine ⟨other, ?_, fun negative => ?_⟩
        · rwa [displayed_of_small small]
        · rw [display_of_small below, display_of_small small, same]
      · apply itself
        obtain ⟨count, value⟩ := exists_whole whole
        have exact : magnitude.toRat * 10 ^ places = (count * 10 ^ places : ℕ) := by
          rw [value]
          push_cast
          rfl
        rw [displayed_of_small small, Decimal.units, toRat_shown, atPlaces_of_whole exact,
          toRat_mul_unitsPerOne]
        exact magnitude.nearest_units
  · apply itself
    rw [displayed_of_large large]
    exact magnitude.nearest_shortest

end Magnitude

/-- Displaying again what is displayed, to the same number of places or without one, changes
nothing, whatever the text. -/
theorem displays_are_stable (text : String) (precision : Option ℕ) :
    formatNumber (formatNumber text precision) precision = formatNumber text precision := by
  obtain unread | ⟨negative, magnitude, shown⟩ :
      formatNumber text precision = errorText ∨ ∃ negative magnitude,
        formatNumber text precision = .ofList (Magnitude.display magnitude negative precision) := by
    rw [formatNumber]
    split
    · exact .inr ⟨_, _, rfl⟩
    · exact .inl rfl
  · rw [unread, formatNumber_errorText]
  · obtain ⟨other, nearest, same⟩ := magnitude.exists_same_display precision
    rw [shown, formatNumber, String.toList_ofList, Magnitude.withoutSeparators_display,
      Magnitude.read_display nearest]
    dsimp only
    rw [same, Magnitude.display_sign]

end PocketCalc
