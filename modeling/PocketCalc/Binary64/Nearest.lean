import PocketCalc.Rounding
import PocketCalc.Binary64.Basic

/-! The number nearest to an exact quotient, a tie going to the even significand.
Exact results that are too large for a finite number have no nearest magnitude,
and arithmetic answers them with an infinity. -/

namespace PocketCalc
namespace Magnitude

/-- The exponent that leaves a quotient of units at most fifty-three bits. -/
def scale (numerator denominator : Nat) : Nat :=
  (numerator / denominator).log2 - 52

/-- The significand of a quotient of units at its scale. It may have grown to
fifty-four bits, and then it is the least significand of the next scale. -/
def scaled (numerator denominator : Nat) : Nat :=
  Tie.toEven.round numerator (denominator * Nat.pow 2 (scale numerator denominator))

theorem scaled_le (numerator denominator : Nat) :
    scaled numerator denominator ≤ 0x20000000000000 := by
  have near := Tie.toEven.round_le numerator
    (denominator * Nat.pow 2 (scale numerator denominator))
  have small : numerator / (denominator * Nat.pow 2 (scale numerator denominator)) <
      0x20000000000000 := by
    rw [← Nat.div_div_eq_div_mul, Nat.pow_eq, Nat.div_lt_iff_lt_mul (Nat.two_pow_pos _)]
    refine Nat.lt_of_lt_of_le Nat.lt_log2_self ?_
    rw [show 0x20000000000000 = 2 ^ 53 from rfl, ← Nat.pow_add]
    exact Nat.pow_le_pow_right (by decide) (by unfold scale; omega)
  unfold scaled
  omega

theorem le_scaled {numerator denominator : Nat} (scaledUp : scale numerator denominator ≠ 0) :
    0x10000000000000 ≤ scaled numerator denominator := by
  refine Nat.le_trans ?_ (Tie.toEven.le_round _ _)
  rw [← Nat.div_div_eq_div_mul, Nat.pow_eq, Nat.le_div_iff_mul_le (Nat.two_pow_pos _),
    show 0x10000000000000 = 2 ^ 52 from rfl, ← Nat.pow_add]
  unfold scale at scaledUp ⊢
  have nonzero : numerator / denominator ≠ 0 := by
    intro zero
    simp [zero] at scaledUp
  exact Nat.le_trans (Nat.pow_le_pow_right (by decide) (by omega)) (Nat.log2_self_le nonzero)

/-- The magnitude nearest to `numerator / denominator` units, if that is not
beyond the largest one. -/
def nearest? (numerator denominator : Nat) : Option Magnitude :=
  let exponent := scale numerator denominator
  if full : scaled numerator denominator = 0x20000000000000 then
    if bounded : exponent + 1 ≤ 2045 then
      some ⟨0x10000000000000, exponent + 1, by decide, bounded, .inr (Nat.le_refl _)⟩
    else none
  else
    if bounded : exponent ≤ 2045 then
      some ⟨scaled numerator denominator, exponent,
        Nat.lt_of_le_of_ne (scaled_le _ _) full, bounded,
        (Nat.eq_zero_or_pos exponent).imp_right fun scaledUp => le_scaled (Nat.ne_of_gt scaledUp)⟩
    else none

end Magnitude

namespace Binary64

def ofMagnitude? (negative : Bool) : Option Magnitude → Binary64
  | some magnitude => .finite negative magnitude
  | none => .infinite negative

/-- The number nearest to `numerator / denominator` units with the given sign. -/
def nearest (negative : Bool) (numerator denominator : Nat) : Binary64 :=
  ofMagnitude? negative (Magnitude.nearest? numerator denominator)

end Binary64
end PocketCalc
