import PocketCalc.Binary64.Nearest
import PocketCalc.Proofs.Rounding
import Mathlib.Tactic.Positivity
import Mathlib.Tactic.Ring

/-! The magnitude found for a quotient is the nearest of all magnitudes, and the one with the
even significand where two are equally near. None is found exactly from halfway between the
largest magnitude and the power of two after it. Values are counted in units throughout. -/

namespace PocketCalc
namespace Magnitude

theorem units_eq (magnitude : Magnitude) :
    magnitude.units = magnitude.significand * 2 ^ magnitude.exponent := rfl

private theorem cast_two_pow (exponent : ℕ) : (Nat.pow 2 exponent : ℚ) = 2 ^ exponent := by
  rw [Nat.pow_eq, Nat.cast_pow, Nat.cast_ofNat]

theorem unitsPerOne_cast : (unitsPerOne : ℚ) = 2 ^ 1074 := by
  unfold unitsPerOne
  apply cast_two_pow

/-- Halfway between the largest magnitude and the power of two after it, in units. -/
def overflow : ℕ := (2 ^ 54 - 1) * 2 ^ 2044

structure Nearest (exact : ℚ) (magnitude : Magnitude) : Prop where
  bounded : exact < overflow
  near : ∀ other : Magnitude, |exact - magnitude.units| ≤ |exact - other.units|
  tied : ∀ other : Magnitude, other ≠ magnitude →
    |exact - magnitude.units| = |exact - other.units| → magnitude.significand % 2 = 0

private theorem exponent_le_of_units_eq {magnitude other : Magnitude}
    (same : magnitude.units = other.units) : other.exponent ≤ magnitude.exponent := by
  by_contra less
  obtain ⟨gap, apart⟩ := Nat.exists_eq_add_of_lt (not_le.mp less)
  have normal := other.normal.resolve_left (by omega)
  have small := magnitude.significand_lt
  rw [units_eq, units_eq, apart, add_assoc, pow_add, mul_comm (2 ^ _), ← mul_assoc] at same
  have equal := Nat.eq_of_mul_eq_mul_right (by positivity) same
  rw [pow_succ] at equal
  have : 1 ≤ 2 ^ gap := Nat.one_le_two_pow
  nlinarith

theorem units_injective : Function.Injective units := by
  intro magnitude other same
  have exponents : magnitude.exponent = other.exponent :=
    le_antisymm (exponent_le_of_units_eq same.symm) (exponent_le_of_units_eq same)
  have significands : magnitude.significand = other.significand := by
    rw [units_eq, units_eq, exponents] at same
    exact Nat.eq_of_mul_eq_mul_right (by positivity) same
  cases magnitude
  cases other
  simp_all

theorem units_lt_overflow (magnitude : Magnitude) : magnitude.units + 1 ≤ overflow := by
  have bounded (highest : ℕ) (within : magnitude.exponent ≤ highest + 1) :
      magnitude.units + 1 ≤ (2 ^ 54 - 1) * 2 ^ highest := by
    have significand := Nat.le_sub_one_of_lt magnitude.significand_lt
    have power : 2 ^ magnitude.exponent ≤ 2 * 2 ^ highest :=
      (Nat.pow_le_pow_right (by decide) within).trans_eq (pow_succ' 2 highest)
    have largest := Nat.mul_le_mul significand power
    have room : 1 ≤ 2 ^ highest := Nat.one_le_two_pow
    rw [units_eq]
    omega
  exact bounded 2044 magnitude.exponent_le

theorem overflow_le : (overflow : ℚ) ≤ 2 ^ 2098 := by
  have power : (2 : ℚ) ^ 2098 = 2 ^ 54 * 2 ^ 2044 := pow_add 2 54 2044
  rw [power, overflow, Nat.cast_mul, Nat.cast_pow, Nat.cast_ofNat]
  exact mul_le_mul_of_nonneg_right (by norm_num) (by positivity)

theorem Nearest.of_lt {exact : ℚ} {magnitude : Magnitude}
    (close : |exact - magnitude.units| < 1 / 2) : Nearest exact magnitude := by
  have farther (other : Magnitude) (different : other ≠ magnitude) :
      |exact - magnitude.units| < |exact - other.units| := by
    have apart := Tie.one_le_add_of_ne exact (units_injective.ne different)
    linarith
  refine ⟨?_, fun other => ?_, fun other different equal => absurd equal (farther other different).ne⟩
  · have below : (magnitude.units + 1 : ℚ) ≤ overflow := by exact_mod_cast units_lt_overflow magnitude
    have near := (abs_lt.mp close).2
    linarith
  · by_cases same : other = magnitude
    · rw [same]
    · exact (farther other same).le

section
variable (numerator : ℕ) {denominator : ℕ}

private theorem scaled_rounds (positive : 0 < denominator) :
    Tie.toEven.Rounds ((numerator / denominator : ℚ) / 2 ^ scale numerator denominator)
      (scaled numerator denominator) := by
  have rounds := Tie.round_rounds .toEven numerator
    (Nat.mul_pos positive (Nat.two_pow_pos (scale numerator denominator)))
  rw [Nat.cast_mul, ← div_div, Nat.cast_pow, Nat.cast_ofNat] at rounds
  exact rounds

private theorem le_of_scale_ne_zero (positive : 0 < denominator)
    (up : scale numerator denominator ≠ 0) :
    (2 ^ 52 * 2 ^ scale numerator denominator : ℚ) ≤ numerator / denominator := by
  have whole : 2 ^ 52 * 2 ^ scale numerator denominator ≤ numerator / denominator := by
    unfold scale at up ⊢
    rw [← pow_add, show 52 + ((numerator / denominator).log2 - 52) =
      (numerator / denominator).log2 by omega]
    refine Nat.log2_self_le fun zero => ?_
    simp [zero] at up
  rw [le_div_iff₀ (by exact_mod_cast positive)]
  exact_mod_cast (Nat.le_div_iff_mul_le positive).mp whole

private theorem lt_of_scale (positive : 0 < denominator) :
    (numerator / denominator : ℚ) < 2 ^ 53 * 2 ^ scale numerator denominator := by
  have whole : numerator / denominator < 2 ^ 53 * 2 ^ scale numerator denominator := by
    unfold scale
    rw [← pow_add]
    exact Nat.lt_log2_self.trans_le (Nat.pow_le_pow_right (by decide) (by omega))
  rw [div_lt_iff₀ (by exact_mod_cast positive)]
  exact_mod_cast (Nat.div_lt_iff_lt_mul positive).mp whole

variable {numerator : ℕ}

private theorem abs_sub_grid (exact : ℚ) (whole exponent : ℕ) :
    |exact - (whole * 2 ^ exponent : ℕ)| = |exact / 2 ^ exponent - whole| * 2 ^ exponent := by
  rw [← abs_sub_mul (by positivity)]
  push_cast
  rfl

section
variable {exact : ℚ} {significand exponent : ℕ} {magnitude : Magnitude}

/-- A magnitude of a finer scale lies below the least significand of the scale, than which the
rounded one is no farther. -/
private theorem scaled_near_of_finer (rounds : Tie.toEven.Rounds (exact / 2 ^ exponent) significand)
    (above : 2 ^ 52 * 2 ^ exponent ≤ exact) (finer : magnitude.exponent < exponent) :
    |exact - (significand * 2 ^ exponent : ℕ)| < |exact - magnitude.units| := by
  have least : |exact / 2 ^ exponent - significand| ≤ |exact / 2 ^ exponent - (2 ^ 52 : ℕ)| := by
    by_cases same : 2 ^ 52 = significand
    · rw [same]
    · exact (rounds.other same).1
  have below : magnitude.units < 2 ^ 52 * 2 ^ exponent := by
    calc magnitude.units < 2 ^ 53 * 2 ^ magnitude.exponent :=
          Nat.mul_lt_mul_of_pos_right magnitude.significand_lt (Nat.two_pow_pos _)
      _ = 2 ^ 52 * 2 ^ (magnitude.exponent + 1) := by ring
      _ ≤ 2 ^ 52 * 2 ^ exponent := Nat.mul_le_mul_left _ (Nat.pow_le_pow_right (by decide) finer)
  have between : (magnitude.units : ℚ) < 2 ^ 52 * 2 ^ exponent := by exact_mod_cast below
  calc |exact - (significand * 2 ^ exponent : ℕ)|
      ≤ |exact - (2 ^ 52 * 2 ^ exponent : ℕ)| := by
        rw [abs_sub_grid, abs_sub_grid]
        exact mul_le_mul_of_nonneg_right least (by positivity)
    _ = exact - 2 ^ 52 * 2 ^ exponent := by
        push_cast
        exact abs_of_nonneg (sub_nonneg.mpr above)
    _ < exact - magnitude.units := sub_lt_sub_left between _
    _ ≤ |exact - magnitude.units| := le_abs_self _

/-- Other magnitudes lie on the grid of the scale. One just as near as the rounded one is a step
away from it, so its significand is odd. -/
private theorem scaled_near_of_coarser
    (rounds : Tie.toEven.Rounds (exact / 2 ^ exponent) significand)
    (coarser : exponent ≤ magnitude.exponent)
    (different : magnitude.units ≠ significand * 2 ^ exponent) :
    |exact - (significand * 2 ^ exponent : ℕ)| ≤ |exact - magnitude.units| ∧
    (|exact - (significand * 2 ^ exponent : ℕ)| = |exact - magnitude.units| →
      significand % 2 = 0 ∧ magnitude.significand % 2 = 1) := by
  have step : (0 : ℚ) < 2 ^ exponent := by positivity
  obtain ⟨more, coarser⟩ := Nat.exists_eq_add_of_le coarser
  have units : magnitude.units = magnitude.significand * 2 ^ more * 2 ^ exponent := by
    rw [units_eq, coarser, pow_add]
    ring
  rw [units] at different ⊢
  obtain ⟨le, tie⟩ := rounds.other (fun same => different (congrArg (· * 2 ^ exponent) same))
  rw [abs_sub_grid, abs_sub_grid]
  refine ⟨mul_le_mul_of_nonneg_right le step.le, fun equal => ?_⟩
  obtain ⟨even, adjacent⟩ := tie (mul_right_cancel₀ step.ne' equal)
  simp only [Tie.Decides] at even
  refine ⟨even, ?_⟩
  cases more with
  | zero =>
    rw [pow_zero, mul_one] at adjacent
    omega
  | succ more =>
    rw [pow_succ, ← mul_assoc] at adjacent
    omega

/-- The significand grows to the least of the next scale exactly from halfway. -/
private theorem scaled_eq_iff {quotient : ℚ} (rounds : Tie.toEven.Rounds quotient significand)
    (bounded : significand ≤ 2 ^ 53) : significand = 2 ^ 53 ↔ 2 ^ 53 - 1 / 2 ≤ quotient := by
  constructor
  · rintro rfl
    have near := (abs_le.mp rounds.near).1
    push_cast at near
    linarith
  · intro beyond
    by_contra different
    have less : (significand : ℚ) ≤ 2 ^ 53 - 1 := by
      have less : significand + 1 ≤ 2 ^ 53 := by omega
      have less : (significand + 1 : ℚ) ≤ 2 ^ 53 := by exact_mod_cast less
      linarith
    have near := (abs_le.mp rounds.near).2
    have largest : (significand : ℚ) = 2 ^ 53 - 1 := by linarith
    have half : |quotient - significand| = 1 / 2 := by
      rw [show quotient = 2 ^ 53 - 1 / 2 by linarith, largest]
      norm_num
    have even := rounds.tied half
    have odd : significand = 2 ^ 53 - 1 := by
      have next : (significand + 1 : ℚ) = 2 ^ 53 := by linarith
      have next : significand + 1 = 2 ^ 53 := by exact_mod_cast next
      omega
    simp only [Tie.Decides] at even
    omega

end

/-- No magnitude is nearer than the rounded one, and one just as near has an odd significand
while the rounded one's is even. -/
theorem scaled_near (positive : 0 < denominator) {magnitude : Magnitude}
    (different : magnitude.units ≠
      scaled numerator denominator * 2 ^ scale numerator denominator) :
    |(numerator / denominator : ℚ) -
        (scaled numerator denominator * 2 ^ scale numerator denominator : ℕ)| ≤
      |(numerator / denominator : ℚ) - magnitude.units| ∧
    (|(numerator / denominator : ℚ) -
        (scaled numerator denominator * 2 ^ scale numerator denominator : ℕ)| =
      |(numerator / denominator : ℚ) - magnitude.units| →
      scaled numerator denominator % 2 = 0 ∧ magnitude.significand % 2 = 1) := by
  have rounds := scaled_rounds numerator positive
  obtain finer | coarser := lt_or_ge magnitude.exponent (scale numerator denominator)
  · have above := le_of_scale_ne_zero numerator positive (Nat.ne_zero_of_lt finer)
    have strict := scaled_near_of_finer rounds above finer
    exact ⟨strict.le, fun equal => absurd equal strict.ne⟩
  · exact scaled_near_of_coarser rounds coarser different

private theorem overflow_eq : (overflow : ℚ) = (2 ^ 53 - 1 / 2) * 2 ^ 2045 := by
  unfold overflow
  rw [Nat.cast_mul, Nat.cast_pow, Nat.cast_ofNat, pow_succ' (2 : ℚ) 2044]
  generalize (2 : ℚ) ^ 2044 = power
  norm_num
  ring

/-- What is found has the rounded value, and its significand is even if that is rounded to an
even one. -/
theorem units_of_nearest? {magnitude : Magnitude}
    (found : nearest? numerator denominator = some magnitude) :
    magnitude.units = scaled numerator denominator * 2 ^ scale numerator denominator ∧
      (scaled numerator denominator % 2 = 0 → magnitude.significand % 2 = 0) := by
  unfold nearest? at found
  dsimp only at found
  split at found
  next full =>
    split at found <;> cases found
    refine ⟨?_, fun _ => by norm_num⟩
    rw [full, units_eq, pow_succ]
    ring
  next =>
    split at found <;> cases found
    exact ⟨rfl, id⟩

theorem nearest?_eq_none_iff : nearest? numerator denominator = none ↔
    2046 ≤ scale numerator denominator ∨
      scale numerator denominator = 2045 ∧ scaled numerator denominator = 2 ^ 53 := by
  unfold nearest?
  dsimp only
  split
  next full =>
    split
    · simp only [reduceCtorEq, false_iff]
      omega
    · simp only [true_iff]
      norm_num at full ⊢
      omega
  next notFull =>
    split
    · simp only [reduceCtorEq, false_iff]
      norm_num at notFull ⊢
      omega
    · simp only [true_iff]
      omega

theorem nearest?_eq_none_iff_overflow (positive : 0 < denominator) :
    nearest? numerator denominator = none ↔ (overflow : ℚ) ≤ numerator / denominator := by
  have rounds := scaled_rounds numerator positive
  have lower := le_of_scale_ne_zero numerator positive
  have upper := lt_of_scale numerator positive
  have small := scaled_le numerator denominator
  rw [nearest?_eq_none_iff, overflow_eq]
  generalize scaled numerator denominator = significand at *
  generalize scale numerator denominator = exponent at *
  generalize (numerator / denominator : ℚ) = exact at *
  have step : (0 : ℚ) < 2 ^ 2045 := by positivity
  obtain less | rfl | more := Nat.lt_trichotomy exponent 2045
  · have power : (2 : ℚ) ^ exponent * 2 ≤ 2 ^ 2045 := by
      rw [← pow_succ]
      exact pow_le_pow_right₀ one_le_two less
    have below : exact < (2 ^ 53 - 1 / 2) * 2 ^ 2045 := by
      generalize (2 : ℚ) ^ 2045 = most at *
      generalize (2 : ℚ) ^ exponent = least at *
      linarith
    exact iff_of_false (by omega) (not_le.mpr below)
  · -- On the last scale it depends on whether rounding leaves it.
    rw [← le_div_iff₀ step, ← scaled_eq_iff rounds small]
    omega
  · have power : 2 ^ 2045 * 2 ≤ (2 : ℚ) ^ exponent := by
      rw [← pow_succ]
      exact pow_le_pow_right₀ one_le_two more
    have above := lower (by omega)
    refine iff_of_true (.inl more) ?_
    generalize (2 : ℚ) ^ 2045 = most at *
    generalize (2 : ℚ) ^ exponent = least at *
    linarith

/-- A quotient is rounded to a magnitude exactly if that is the nearest one to it. -/
theorem nearest?_eq_some_iff (positive : 0 < denominator) {magnitude : Magnitude} :
    nearest? numerator denominator = some magnitude ↔
      Nearest (numerator / denominator) magnitude := by
  constructor
  · intro found
    obtain ⟨units, even⟩ := units_of_nearest? found
    have bounded := mt (nearest?_eq_none_iff_overflow positive).mpr (by rw [found]; nofun)
    refine ⟨not_le.mp bounded, fun other => ?_, fun other different equal => ?_⟩
    · by_cases same : other = magnitude
      · rw [same]
      · rw [units]
        exact (scaled_near positive (units ▸ units_injective.ne same)).1
    · rw [units] at equal
      exact even ((scaled_near positive (units ▸ units_injective.ne different)).2 equal).1
  · intro nearest
    cases found : nearest? numerator denominator with
    | none =>
      have beyond := (nearest?_eq_none_iff_overflow positive).mp found
      exact absurd nearest.bounded (not_lt.mpr beyond)
    | some other =>
      obtain ⟨units, even⟩ := units_of_nearest? found
      by_contra different
      rw [Option.some.injEq] at different
      have apart := units ▸ units_injective.ne (Ne.symm different)
      have closer := nearest.near other
      rw [units] at closer
      have equal := le_antisymm (scaled_near positive apart).1 closer
      have odd := ((scaled_near positive apart).2 equal).2
      have evenly := nearest.tied other different (by rw [units, equal])
      omega

end

private theorem exists_quotient {exact : ℚ} (nonneg : 0 ≤ exact) :
    ∃ numerator denominator : ℕ, 0 < denominator ∧ exact = numerator / denominator := by
  refine ⟨exact.num.toNat, exact.den, exact.den_pos, ?_⟩
  have whole : ((exact.num.toNat : ℤ) : ℚ) = exact.num := by
    rw [Int.toNat_of_nonneg (Rat.num_nonneg.mpr nonneg)]
  rw [← Int.cast_natCast, whole]
  exact (Rat.num_div_den exact).symm

theorem Nearest.unique {exact : ℚ} {magnitude other : Magnitude} (nonneg : 0 ≤ exact)
    (nearest : Nearest exact magnitude) (alternative : Nearest exact other) : other = magnitude := by
  obtain ⟨numerator, denominator, positive, rfl⟩ := exists_quotient nonneg
  rw [← nearest?_eq_some_iff positive] at nearest alternative
  rw [nearest] at alternative
  exact (Option.some.inj alternative).symm

theorem exists_nearest {exact : ℚ} (nonneg : 0 ≤ exact) (bounded : exact < overflow) :
    ∃ magnitude, Nearest exact magnitude := by
  obtain ⟨numerator, denominator, positive, rfl⟩ := exists_quotient nonneg
  have found := mt (nearest?_eq_none_iff_overflow positive).mp (not_le.mpr bounded)
  obtain ⟨magnitude, found⟩ := Option.ne_none_iff_exists'.mp found
  exact ⟨magnitude, (nearest?_eq_some_iff positive).mp found⟩

/-- Rounding moves a value by half a unit at most, or by a half in its fifty-third bit. -/
theorem Nearest.distance_le {exact : ℚ} {magnitude : Magnitude} (nonneg : 0 ≤ exact)
    (nearest : Nearest exact magnitude) :
    |exact - magnitude.units| ≤ max (1 / 2) (exact / 2 ^ 53) := by
  obtain ⟨numerator, denominator, positive, rfl⟩ := exists_quotient nonneg
  have found := (nearest?_eq_some_iff positive).mpr nearest
  have near := (scaled_rounds numerator positive).near
  have lower := le_of_scale_ne_zero numerator positive
  rw [(units_of_nearest? found).1, abs_sub_grid]
  generalize scaled numerator denominator = significand at *
  generalize scale numerator denominator = exponent at *
  generalize (numerator / denominator : ℚ) = exact at *
  obtain rfl | up := Nat.eq_zero_or_pos exponent
  · rw [pow_zero, mul_one]
    exact le_max_of_le_left near
  · apply le_max_of_le_right
    have least := lower up.ne'
    have step : (0 : ℚ) < 2 ^ exponent := by positivity
    calc |exact / 2 ^ exponent - significand| * 2 ^ exponent
        ≤ 1 / 2 * 2 ^ exponent := mul_le_mul_of_nonneg_right near step.le
      _ = 2 ^ 52 * 2 ^ exponent / 2 ^ 53 := by ring
      _ ≤ exact / 2 ^ 53 := div_le_div_of_nonneg_right least (by norm_num)

theorem nearest_iff_eq_zero {exact : ℚ} {magnitude : Magnitude} (nonneg : 0 ≤ exact)
    (less : exact < 1 / 2) : Nearest exact magnitude ↔ magnitude = zero := by
  have close : Nearest exact zero := by
    apply Nearest.of_lt
    have none : zero.units = 0 := by rw [units_eq, zero, Nat.zero_mul]
    rwa [none, Nat.cast_zero, sub_zero, abs_of_nonneg nonneg]
  refine ⟨fun nearest => close.unique nonneg nearest, ?_⟩
  rintro rfl
  exact close

end Magnitude
end PocketCalc
