import PocketCalc.Environment.Standard
import PocketCalc.Proofs.NearestMagnitude

/-! Angles in degrees are multiplied by pi and then divided by 180. The product of a large angle is
too large for a finite number although the angle in radians is not, so beyond a limit the
conversion gives an infinity, and the functions of an angle have no value there. To multiply by
the quotient would need no limit. -/

namespace PocketCalc

namespace Magnitude

def pi : Magnitude := ⟨0x1921fb54442d18, 1023, by decide, by decide, .inr (by decide)⟩

def halfTurn : Magnitude := ⟨0x16800000000000, 1029, by decide, by decide, .inr (by decide)⟩

def degree : Magnitude := ⟨0x11df46a2529d39, 1016, by decide, by decide, .inr (by decide)⟩

/-- The largest magnitude whose product with pi is not too large. -/
def degreeLimit : Magnitude := ⟨0x145f306dc9c882, 2044, by decide, by decide, .inr (by decide)⟩

/-- A greater magnitude is greater by a step of the lesser one's scale at least. -/
theorem succ_mul_le_of_lt {magnitude other : Magnitude} (less : magnitude.units < other.units) :
    (magnitude.significand + 1) * 2 ^ magnitude.exponent ≤ other.units := by
  obtain finer | coarser := lt_or_ge other.exponent magnitude.exponent
  · have normal := magnitude.normal.resolve_left (by omega)
    have below : other.units ≤ magnitude.units := by
      calc other.units ≤ 2 ^ 53 * 2 ^ other.exponent :=
            Nat.mul_le_mul_right _ other.significand_lt.le
        _ = 2 ^ 52 * 2 ^ (other.exponent + 1) := by ring
        _ ≤ 2 ^ 52 * 2 ^ magnitude.exponent :=
            Nat.mul_le_mul_left _ (Nat.pow_le_pow_right (by decide) finer)
        _ ≤ magnitude.units := Nat.mul_le_mul_right _ normal
    exact absurd less (not_lt.mpr below)
  · obtain ⟨more, same⟩ := Nat.exists_eq_add_of_le coarser
    have grid : other.units = other.significand * 2 ^ more * 2 ^ magnitude.exponent := by
      rw [units_eq, same, pow_add]
      ring
    rw [grid, units_eq] at less
    rw [grid]
    exact Nat.mul_le_mul_right _ (Nat.lt_of_mul_lt_mul_right less)

theorem degreeLimit_within : degreeLimit.units * pi.units < overflow * unitsPerOne := by
  decide +kernel

theorem degreeLimit_largest : overflow * unitsPerOne ≤
    (degreeLimit.significand + 1) * 2 ^ degreeLimit.exponent * pi.units := by
  decide +kernel

theorem mul_pi_lt_overflow_iff (magnitude : Magnitude) :
    magnitude.units * pi.units < overflow * unitsPerOne ↔ magnitude.units ≤ degreeLimit.units := by
  constructor
  · intro bounded
    by_contra beyond
    have step := succ_mul_le_of_lt (not_le.mp beyond)
    have product := Nat.mul_le_mul_right pi.units step
    exact absurd bounded (not_lt.mpr (degreeLimit_largest.trans product))
  · intro within
    exact (Nat.mul_le_mul_right _ within).trans_lt degreeLimit_within

end Magnitude

namespace Binary64

private theorem pi_eq : pi = .finite false .pi := by decide +kernel

private theorem halfTurn_eq : ofDecimal false ⟨180, 0⟩ = .finite false .halfTurn := by
  decide +kernel

private theorem degree_eq : pi.div (ofDecimal false ⟨180, 0⟩) = .finite false .degree := by
  decide +kernel

section
variable {numerator denominator : ℕ} (negative : Bool)

private theorem nearest_of_overflow (positive : 0 < denominator)
    (beyond : Magnitude.overflow * denominator ≤ numerator) :
    nearest negative numerator denominator = .infinite negative := by
  have none : Magnitude.nearest? numerator denominator = none := by
    rw [Magnitude.nearest?_eq_none_iff_overflow positive, le_div_iff₀ (by exact_mod_cast positive)]
    exact_mod_cast beyond
  rw [nearest, none, ofMagnitude?]

private theorem exists_nearest_of_lt (positive : 0 < denominator)
    (bounded : numerator < Magnitude.overflow * denominator) :
    ∃ magnitude, nearest negative numerator denominator = .finite negative magnitude := by
  have some : Magnitude.nearest? numerator denominator ≠ none := by
    rw [ne_eq, Magnitude.nearest?_eq_none_iff_overflow positive, not_le,
      div_lt_iff₀ (by exact_mod_cast positive)]
    exact_mod_cast bounded
  obtain ⟨magnitude, found⟩ := Option.ne_none_iff_exists'.mp some
  exact ⟨magnitude, by rw [nearest, found, ofMagnitude?]⟩

end

variable {magnitude : Magnitude}

private theorem mul_of_unsigned (negative : Bool) (magnitude factor : Magnitude) :
    mul (.finite negative magnitude) (.finite false factor) =
      nearest negative (magnitude.units * factor.units) Magnitude.unitsPerOne := by
  rw [mul, Bool.bne_false]

private theorem exists_div_halfTurn (negative : Bool) (magnitude : Magnitude) :
    ∃ quotient, div (.finite negative magnitude) (.finite false .halfTurn) =
      .finite negative quotient := by
  have nonzero : Magnitude.halfTurn.significand ≠ 0 := by decide
  have atLeastOne : Magnitude.unitsPerOne ≤ Magnitude.halfTurn.units := by decide +kernel
  have positive : 0 < Magnitude.halfTurn.units := by decide +kernel
  rw [div, if_neg nonzero, Bool.bne_false]
  apply exists_nearest_of_lt negative positive
  calc magnitude.units * Magnitude.unitsPerOne
      ≤ magnitude.units * Magnitude.halfTurn.units := Nat.mul_le_mul_left _ atLeastOne
    _ < Magnitude.overflow * Magnitude.halfTurn.units :=
      Nat.mul_lt_mul_of_pos_right magnitude.units_lt_overflow positive

/-- With the quotient as its factor an angle would be converted whatever its magnitude. -/
theorem exists_mul_degree (negative : Bool) (magnitude : Magnitude) :
    ∃ converted, mul (.finite negative magnitude) (.finite false .degree) =
      .finite negative converted := by
  have atMostOne : Magnitude.degree.units ≤ Magnitude.unitsPerOne := by decide +kernel
  have positive : 0 < Magnitude.unitsPerOne := by decide +kernel
  rw [mul_of_unsigned]
  apply exists_nearest_of_lt negative positive
  calc magnitude.units * Magnitude.degree.units
      ≤ magnitude.units * Magnitude.unitsPerOne := Nat.mul_le_mul_left _ atMostOne
    _ < Magnitude.overflow * Magnitude.unitsPerOne :=
      Nat.mul_lt_mul_of_pos_right magnitude.units_lt_overflow positive

end Binary64

namespace AngleMode

variable {magnitude : Magnitude}

theorem exists_toRadians (negative : Bool) (within : magnitude.units ≤ Magnitude.degreeLimit.units) :
    ∃ converted, degrees.toRadians (.finite negative magnitude) = .finite negative converted := by
  have positive : 0 < Magnitude.unitsPerOne := by decide +kernel
  obtain ⟨product, found⟩ := Binary64.exists_nearest_of_lt negative positive
    ((Magnitude.mul_pi_lt_overflow_iff magnitude).mpr within)
  rw [toRadians, Binary64.pi_eq, Binary64.halfTurn_eq, Binary64.mul_of_unsigned, found]
  exact Binary64.exists_div_halfTurn negative product

theorem toRadians_of_large (negative : Bool)
    (large : Magnitude.degreeLimit.units < magnitude.units) :
    degrees.toRadians (.finite negative magnitude) = .infinite negative := by
  have positive : 0 < Magnitude.unitsPerOne := by decide +kernel
  have beyond := mt (Magnitude.mul_pi_lt_overflow_iff magnitude).mp (not_le.mpr large)
  rw [toRadians, Binary64.pi_eq, Binary64.halfTurn_eq, Binary64.mul_of_unsigned,
    Binary64.nearest_of_overflow negative positive (not_lt.mp beyond), Binary64.div,
    Bool.bne_false]

end AngleMode

namespace Environment

/-- What is made of a function of an angle, given what the machine computes for angles in
radians. -/
def resolveAngle (computed : Binary64 → Binary64) (name : String) (mode : AngleMode)
    (angle : Binary64) : Except Fault Binary64 :=
  let value := computed (mode.toRadians angle)
  if value.isFinite then .ok value else .error (.undefined (.unary name (toString angle)))

private theorem standardResolve_sin (mode : AngleMode) (argument : Argument) :
    standardResolve mode "sin" [argument] = resolveAngle .sin "sin" mode argument.value := rfl

private theorem standardResolve_cos (mode : AngleMode) (argument : Argument) :
    standardResolve mode "cos" [argument] = resolveAngle .cos "cos" mode argument.value := rfl

/-- What is relied on of the machine's sine and cosine: a value at every finite angle, and none at
an infinite one. -/
structure Circular (computed : Binary64 → Binary64) : Prop where
  finite {angle : Binary64} : angle.isFinite = true → (computed angle).isFinite = true
  infinite (negative : Bool) : (computed (.infinite negative)).isFinite = false

section
variable {computed : Binary64 → Binary64} {mode : AngleMode} {angle : Binary64}

private theorem Circular.resolveAngle_of_finite (circular : Circular computed) (name : String)
    (finite : (mode.toRadians angle).isFinite = true) :
    resolveAngle computed name mode angle = .ok (computed (mode.toRadians angle)) := by
  rw [resolveAngle, circular.finite finite, if_pos rfl]

private theorem Circular.resolveAngle_of_infinite (circular : Circular computed) (name : String)
    {negative : Bool} (infinite : mode.toRadians angle = .infinite negative) :
    resolveAngle computed name mode angle = .error (.undefined (.unary name (toString angle))) := by
  rw [resolveAngle, infinite, circular.infinite negative, if_neg Bool.false_ne_true]

end

/-- An angle in degrees is converted to a finite one exactly up to a limit, the largest number
over pi. Up to there its sine and cosine have a value as those of every angle in radians have, that
at the converted angle; beyond it they are reported as undefined, though the quotient of pi and
180 times the angle would be finite. -/
theorem degrees_are_converted_up_to_a_limit (negative : Bool) (magnitude : Magnitude) :
    let angle := Binary64.finite negative magnitude
    ((AngleMode.degrees.toRadians angle).isFinite = true ↔
      magnitude.units ≤ Magnitude.degreeLimit.units) ∧
    (∀ computed, Circular computed → ∀ name,
      resolveAngle computed name .radians angle = .ok (computed angle) ∧
      (magnitude.units ≤ Magnitude.degreeLimit.units →
        resolveAngle computed name .degrees angle =
          .ok (computed (AngleMode.degrees.toRadians angle))) ∧
      (Magnitude.degreeLimit.units < magnitude.units →
        resolveAngle computed name .degrees angle =
          .error (.undefined (.unary name (toString angle))))) ∧
    (∀ mode argument,
      standardResolve mode "sin" [argument] = resolveAngle .sin "sin" mode argument.value ∧
      standardResolve mode "cos" [argument] = resolveAngle .cos "cos" mode argument.value) ∧
    (angle.mul (Binary64.pi.div (.ofDecimal false ⟨180, 0⟩))).isFinite = true := by
  intro angle
  have converted (within : magnitude.units ≤ Magnitude.degreeLimit.units) :
      (AngleMode.degrees.toRadians angle).isFinite = true := by
    obtain ⟨other, same⟩ := AngleMode.exists_toRadians negative within
    rw [same, Binary64.isFinite]
  refine ⟨⟨fun finite => ?_, converted⟩,
    fun computed circular name => ⟨?_, fun within => ?_, fun large => ?_⟩,
    fun mode argument => ⟨standardResolve_sin mode argument, standardResolve_cos mode argument⟩, ?_⟩
  · by_contra large
    rw [AngleMode.toRadians_of_large negative (not_le.mp large)] at finite
    contradiction
  · exact circular.resolveAngle_of_finite name rfl
  · exact circular.resolveAngle_of_finite name (converted within)
  · exact circular.resolveAngle_of_infinite name (AngleMode.toRadians_of_large negative large)
  · obtain ⟨other, same⟩ := Binary64.exists_mul_degree negative magnitude
    rw [Binary64.degree_eq, same, Binary64.isFinite]

/-- The sine of zero and of the least number in degrees. Of the machine's sine only the values at
zero and at the infinities play a part. -/
theorem degrees_are_converted_up_to_a_limit_not_to_the_largest :
    let computed (angle : Binary64) : Binary64 := if angle.isFinite then .zero else .nan
    let largest : Magnitude := ⟨0x1fffffffffffff, 2045, by decide, by decide, .inr (by decide)⟩
    Circular computed ∧
    resolveAngle computed "sin" .degrees .zero =
      .ok (computed (AngleMode.degrees.toRadians .zero)) ∧
    resolveAngle computed "sin" .degrees (.finite true largest) =
      .error (.undefined (.unary "sin" (toString (Binary64.finite true largest)))) := by
  intro computed largest
  have circular : Circular computed := by
    refine ⟨fun finite => ?_, fun negative => rfl⟩
    simp only [computed, finite, if_true]
    rfl
  have within : Magnitude.zero.units ≤ Magnitude.degreeLimit.units := by decide +kernel
  have large : Magnitude.degreeLimit.units < largest.units := by decide +kernel
  have zero := (degrees_are_converted_up_to_a_limit false .zero).2.1 computed circular "sin"
  have least := (degrees_are_converted_up_to_a_limit true largest).2.1 computed circular "sin"
  exact ⟨circular, zero.2.1 within, least.2.2 large⟩

/-- A finite angle in degrees that has no finite one in radians. -/
theorem large_degrees_are_not_converted :
    (Binary64.ofDecimal false ⟨1, 308⟩).isFinite = true ∧
    (AngleMode.degrees.toRadians (.ofDecimal false ⟨1, 308⟩)).isFinite = false := by
  decide +kernel

end Environment
end PocketCalc
