import PocketCalc.Display.Format
import PocketCalc.Proofs.DisplayedAnswers
import PocketCalc.Proofs.WrittenForms

/-! A number shown to some decimal places is its exact value rounded to them, a half going away
from zero. Beyond the last place of a unit there is nothing to round, however many places are
asked for. -/

namespace PocketCalc

private theorem Tie.rounds_floor {exact : ℚ} (nonneg : 0 ≤ exact) :
    Tie.up.Rounds exact ⌊exact + 1 / 2⌋₊ := by
  have least := Nat.floor_le (by linarith : 0 ≤ exact + 1 / 2)
  have most := Nat.lt_floor_add_one (exact + 1 / 2)
  refine ⟨abs_le.mpr ⟨by linarith, by linarith⟩, fun tied => ?_⟩
  change exact < _
  obtain above | below := (abs_eq (by norm_num)).mp tied
  · linarith
  · linarith

namespace Magnitude

/-- The exact value rounded to a number of decimal places, a half going up. -/
def atPlaces (magnitude : Magnitude) (places : ℕ) : ℚ :=
  ⌊magnitude.toRat * 10 ^ places + 1 / 2⌋₊ / 10 ^ places

theorem toRat_toPlace_up (magnitude : Magnitude) (places : ℕ) :
    (magnitude.toPlace .up (-places)).toRat = magnitude.atPlaces places := by
  have rounds := toPlace_rounds magnitude .up (-places)
  have nonneg : 0 ≤ magnitude.toRat * 10 ^ places :=
    mul_nonneg magnitude.toRat_nonneg (by positivity)
  rw [units_div_step, zpow_neg, zpow_natCast, div_inv_eq_mul] at rounds
  have coefficient := rounds.unique (Tie.rounds_floor nonneg)
  rw [atPlaces, coefficient, Decimal.toRat, div_eq_mul_inv, ← zpow_natCast, ← zpow_neg, toPlace]

/-- A unit has 1074 decimal places. -/
theorem exists_toRat_mul_pow (magnitude : Magnitude) {places : ℕ} (fine : 1074 ≤ places) :
    ∃ whole : ℕ, magnitude.toRat * 10 ^ places = whole := by
  obtain ⟨more, rfl⟩ := Nat.exists_eq_add_of_le fine
  refine ⟨magnitude.units * (5 ^ 1074 * 10 ^ more), ?_⟩
  have ten : (10 : ℚ) ^ 1074 = 2 ^ 1074 * 5 ^ 1074 := by
    rw [← mul_pow, show (2 : ℚ) * 5 = 10 by norm_num]
  rw [toRat, unitsPerOne_cast, pow_add, ten, Nat.cast_mul, Nat.cast_mul, Nat.cast_pow, Nat.cast_pow,
    Nat.cast_ofNat, Nat.cast_ofNat]
  generalize (5 : ℚ) ^ 1074 = fives
  field_simp

theorem atPlaces_of_whole {magnitude : Magnitude} {places whole : ℕ}
    (exact : magnitude.toRat * 10 ^ places = whole) :
    magnitude.atPlaces places = magnitude.toRat := by
  have floor : ⌊(whole : ℚ) + 1 / 2⌋₊ = whole :=
    (Nat.floor_eq_iff (by positivity)).mpr ⟨by linarith, by linarith⟩
  rw [atPlaces, exact, floor, ← exact, mul_div_cancel_right₀ _ (by positivity)]

theorem atPlaces_of_fine (magnitude : Magnitude) {places : ℕ} (fine : 1074 ≤ places) :
    magnitude.atPlaces places = magnitude.toRat :=
  have ⟨_, exact⟩ := magnitude.exists_toRat_mul_pow fine
  atPlaces_of_whole exact

/-- What is shown to some places is the rounded value without final zeros. -/
theorem exists_shown (magnitude : Magnitude) (places : ℕ) : ∃ decimal : Decimal,
    magnitude.shown (some places) = decimal.trim ∧ decimal.toRat = magnitude.atPlaces places ∧
      decimal.exponent = -(min places 1074 : ℕ) := by
  refine ⟨_, rfl, ?_, rfl⟩
  rw [toRat_toPlace_up]
  obtain coarse | fine := le_total places 1074
  · rw [min_eq_left coarse]
  · rw [min_eq_right fine, atPlaces_of_fine magnitude le_rfl, atPlaces_of_fine magnitude fine]

theorem isLarge_eq_false_iff (magnitude : Magnitude) :
    magnitude.isLarge = false ↔ magnitude.toRat < 10 ^ 16 := by
  have threshold : (10 : ℚ) ^ 16 = (10000000000000000 : ℕ) := by norm_num
  rw [isLarge, decide_eq_false_iff_not, not_le, toRat, div_lt_iff₀ unitsPerOne_pos, threshold,
    ← Nat.cast_mul, Nat.cast_lt]

theorem display_of_small {magnitude : Magnitude} (small : magnitude.toRat < 10 ^ 16)
    (negative : Bool) (precision : Option ℕ) :
    magnitude.display negative precision = groupThousands
      (withMinus (negative && (magnitude.shown precision).coefficient != 0)
        (magnitude.shown precision).positional) := by
  rw [display, (isLarge_eq_false_iff magnitude).mpr small, if_neg Bool.false_ne_true]

end Magnitude

/-- A text that is read as a number below the threshold is shown to any number of places as the
exact value of that number rounded to them, a half going away from zero. There is no superfluous
zero, and a number rounded to zero is shown as zero without a sign. -/
theorem fixed_places_are_exact (text : String) (places : ℕ) {negative : Bool}
    {magnitude : Magnitude}
    (read : Binary64.read (withoutSeparators text.toList) = .ok (.finite negative magnitude))
    (small : magnitude.toRat < 10 ^ 16) :
    let rounded : ℚ := ⌊magnitude.toRat * 10 ^ places + 1 / 2⌋₊ / 10 ^ places
    let shown := (formatNumber text (some places)).toList
    (rounded = 0 → shown = ['0']) ∧
    ∃ numeral : Numeral, numeral.Shows rounded ∧ numeral.exponent = none ∧
      (numeral.fraction.getD []).length ≤ places ∧
      shown.filter (· != ',') = withMinus (negative && rounded ≠ 0) numeral.text := by
  intro rounded shown
  obtain ⟨decimal, trimmed, value, exponent⟩ := magnitude.exists_shown places
  change decimal.toRat = rounded at value
  have nonzero : (decimal.trim.coefficient != 0) = decide (rounded ≠ 0) := by
    rw [Bool.eq_iff_iff, bne_iff_ne, decide_eq_true_iff, ne_eq, ne_eq,
      decimal.trim_coefficient_eq_zero_iff, value]
  have text : shown = groupThousands
      (withMinus (negative && rounded ≠ 0) decimal.trim.positional) := by
    change (formatNumber text (some places)).toList = _
    rw [formatNumber, read]
    dsimp only
    rw [String.toList_ofList, Magnitude.display_of_small small, trimmed, nonzero]
  refine ⟨fun zero => ?_, ?_⟩
  · have none := decimal.toRat_eq_zero_iff.mp (value.trans zero)
    rw [text, zero, Decimal.trim_of_zero none]
    cases negative <;> rfl
  · obtain ⟨numeral, shows, written, plain, length⟩ := decimal.exists_shown
    rw [value] at shows
    rw [exponent, neg_neg, Int.toNat_natCast] at length
    refine ⟨numeral, shows, plain, length.trans (min_le_left _ _), ?_⟩
    rw [text, filter_groupThousands, ← written, shows.spells.withoutCommas]

/-- A half below zero is rounded away from it. -/
theorem fixed_places_are_exact_at_a_half :
    let magnitude : Magnitude :=
      ⟨0x134a0000000000, 1032, by decide, by decide, .inr (by decide)⟩
    Binary64.read (withoutSeparators "-1,234.5".toList) = .ok (.finite true magnitude) ∧
    magnitude.toRat = 12345 / 10 ∧
    ∃ numeral : Numeral, numeral.Shows 1235 ∧
      (formatNumber "-1,234.5" (some 0)).toList.filter (· != ',') = '-' :: numeral.text := by
  intro magnitude
  have read : Binary64.read (withoutSeparators "-1,234.5".toList) =
      .ok (.finite true magnitude) := by decide +kernel
  have value : magnitude.toRat = 12345 / 10 := by
    rw [Magnitude.toRat_eq]
    norm_num [magnitude]
  have rounded : (⌊magnitude.toRat * 10 ^ 0 + 1 / 2⌋₊ / 10 ^ 0 : ℚ) = 1235 := by
    rw [value]
    norm_num
  obtain ⟨-, numeral, shows, -, -, shown⟩ :=
    fixed_places_are_exact "-1,234.5" 0 read (by rw [value]; norm_num)
  rw [rounded] at shows shown
  exact ⟨read, value, numeral, shows, shown⟩

end PocketCalc
