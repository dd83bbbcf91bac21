import Mathlib.Algebra.Order.AbsoluteValue.Basic
import Mathlib.Algebra.Order.Field.Basic
import Mathlib.Data.Rat.Cast.Order
import Mathlib.Tactic.FieldSimp
import Mathlib.Tactic.Linarith
import Mathlib.Tactic.NormNum
import PocketCalc.Rounding

/-! Rounding a quotient gives the nearest whole number. The relation names neither the
quotient's numerator nor its denominator, so equal quotients are rounded alike. -/

namespace PocketCalc

theorem abs_sub_mul {unit : ℚ} (positive : 0 < unit) (exact whole : ℚ) :
    |exact - whole * unit| = |exact / unit - whole| * unit := by
  rw [← abs_of_pos positive, ← abs_mul, abs_of_pos positive, sub_mul, div_mul_cancel₀ _ positive.ne']

namespace Tie

/-- What a whole number has to satisfy to stand for an exact value halfway to the next. -/
def Decides (exact : ℚ) (whole : ℕ) : Tie → Prop
  | .toEven => whole % 2 = 0
  | .up => exact < whole

structure Rounds (tie : Tie) (exact : ℚ) (whole : ℕ) : Prop where
  near : |exact - whole| ≤ 1 / 2
  tied : |exact - whole| = 1 / 2 → tie.Decides exact whole

variable {tie : Tie} {exact : ℚ}

theorem Rounds.of_lt {whole : ℕ} (near : |exact - whole| < 1 / 2) : tie.Rounds exact whole :=
  ⟨near.le, fun tied => absurd tied near.ne⟩

theorem one_le_add_of_ne (exact : ℚ) {whole other : ℕ} (different : other ≠ whole) :
    1 ≤ |exact - whole| + |exact - other| := by
  have apart : (1 : ℚ) ≤ |(whole : ℚ) - other| := by
    exact_mod_cast Int.one_le_abs (sub_ne_zero.mpr (Nat.cast_injective.ne different.symm))
  have triangle := abs_sub_le (whole : ℚ) exact other
  rw [abs_sub_comm (whole : ℚ) exact] at triangle
  linarith

/-- Another whole number is at least as far away, and as near only across a tie. -/
theorem Rounds.other {whole other : ℕ} (rounds : tie.Rounds exact whole) (different : other ≠ whole) :
    |exact - whole| ≤ |exact - other| ∧
      (|exact - whole| = |exact - other| →
        tie.Decides exact whole ∧ (other = whole + 1 ∨ whole = other + 1)) := by
  have near := rounds.near
  have apart := one_le_add_of_ne exact different
  refine ⟨by linarith, fun equal => ⟨rounds.tied (by linarith), ?_⟩⟩
  have close : |(other : ℚ) - whole| ≤ 1 := by
    have triangle := abs_sub_le (other : ℚ) exact whole
    rw [abs_sub_comm (other : ℚ) exact] at triangle
    linarith
  have close : |(other : ℤ) - whole| ≤ 1 := by exact_mod_cast close
  rw [abs_le] at close
  omega

theorem Rounds.unique {whole other : ℕ} (rounds : tie.Rounds exact whole)
    (alternative : tie.Rounds exact other) : other = whole := by
  by_contra different
  have equal := le_antisymm (rounds.other different).1 (alternative.other (Ne.symm different)).1
  obtain ⟨decided, adjacent⟩ := (rounds.other different).2 equal
  obtain ⟨conversely, _⟩ := (alternative.other (Ne.symm different)).2 equal.symm
  cases tie with
  | toEven =>
    simp only [Decides] at decided conversely
    omega
  | up =>
    simp only [Decides] at decided conversely
    rw [abs_of_neg (sub_neg.mpr decided), abs_of_neg (sub_neg.mpr conversely)] at equal
    have : (other : ℚ) = whole := by linarith
    exact different (by exact_mod_cast this)

private theorem Rounds.halfway (tie : Tie) (below : ℕ) : tie.Rounds (below + 1 / 2)
    (match tie with
      | .toEven => below + below % 2
      | .up => below + 1) := by
  have midway (whole : ℕ) (adjacent : whole = below ∨ whole = below + 1) :
      |(below : ℚ) + 1 / 2 - whole| = 1 / 2 := by
    obtain rfl | rfl := adjacent
    · rw [add_sub_cancel_left]
      norm_num
    · push_cast
      rw [abs_of_nonpos (by linarith)]
      linarith
  cases tie with
  | toEven =>
    refine ⟨(midway (below + below % 2) (by omega)).le, fun _ => ?_⟩
    simp only [Decides]
    omega
  | up =>
    refine ⟨(midway _ (.inr rfl)).le, fun _ => ?_⟩
    simp only [Decides]
    push_cast
    linarith

private theorem div_eq_add_share (numerator : ℕ) {denominator : ℕ} (positive : 0 < denominator) :
    (numerator / denominator : ℚ) =
      (numerator / denominator : ℕ) + (numerator % denominator : ℕ) / denominator := by
  have scale : (denominator : ℚ) ≠ 0 := Nat.cast_ne_zero.mpr positive.ne'
  have divided : (numerator : ℚ) =
      denominator * (numerator / denominator : ℕ) + (numerator % denominator : ℕ) := by
    exact_mod_cast (Nat.div_add_mod numerator denominator).symm
  rw [div_eq_iff scale, add_mul, div_mul_cancel₀ _ scale, mul_comm]
  exact divided

theorem round_rounds (tie : Tie) (numerator : ℕ) {denominator : ℕ} (positive : 0 < denominator) :
    tie.Rounds (numerator / denominator) (tie.round numerator denominator) := by
  have scale : (0 : ℚ) < denominator := Nat.cast_pos.mpr positive
  have nonneg : (0 : ℚ) ≤ (numerator % denominator : ℕ) / denominator := by positivity
  have proper : ((numerator % denominator : ℕ) : ℚ) / denominator < 1 := by
    rw [div_lt_one scale]
    exact Nat.cast_lt.mpr (Nat.mod_lt numerator positive)
  rw [div_eq_add_share numerator positive]
  unfold round
  dsimp only
  split
  next less =>
    have small : ((numerator % denominator : ℕ) : ℚ) / denominator < 1 / 2 := by
      have less : (2 * (numerator % denominator : ℕ) : ℚ) < denominator := by exact_mod_cast less
      rw [div_lt_iff₀ scale]
      linarith
    apply Rounds.of_lt
    rwa [add_sub_cancel_left, abs_of_nonneg nonneg]
  next notLess =>
    split
    next more =>
      have large : 1 / 2 < ((numerator % denominator : ℕ) : ℚ) / denominator := by
        have more : (denominator : ℚ) < 2 * (numerator % denominator : ℕ) := by exact_mod_cast more
        rw [lt_div_iff₀ scale]
        linarith
      apply Rounds.of_lt
      push_cast
      rw [abs_of_nonpos (by linarith)]
      linarith
    next notMore =>
      have half : ((numerator % denominator : ℕ) : ℚ) / denominator = 1 / 2 := by
        have equal : 2 * (numerator % denominator) = denominator := by omega
        have equal : (2 * (numerator % denominator : ℕ) : ℚ) = denominator := by exact_mod_cast equal
        rw [div_eq_iff scale.ne']
        linarith
      rw [half]
      exact .halfway tie (numerator / denominator)

end Tie
end PocketCalc
