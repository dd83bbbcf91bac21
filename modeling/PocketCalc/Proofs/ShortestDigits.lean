import PocketCalc.Proofs.FixedPlaces

/-! The shortest digits of a magnitude are read as that magnitude. Whether a candidate is read
so is decided by reading it, and the exact value stands by for a magnitude without one, so no
count of digits has to be known to be enough. -/

namespace PocketCalc
namespace Magnitude

theorem nearest_units (magnitude : Magnitude) : Nearest magnitude.units magnitude := by
  apply Nearest.of_lt
  rw [sub_self, abs_zero]
  norm_num

theorem toRat_mul_unitsPerOne (magnitude : Magnitude) :
    magnitude.toRat * unitsPerOne = magnitude.units :=
  div_mul_cancel₀ _ unitsPerOne_pos.ne'

private theorem nearest_exact (magnitude : Magnitude) :
    Nearest magnitude.exact.units magnitude := by
  have value : magnitude.exact.toRat = magnitude.toRat :=
    (toRat_toPlace_up magnitude 1074).trans (atPlaces_of_fine magnitude le_rfl)
  rw [Decimal.units, value, toRat_mul_unitsPerOne]
  exact magnitude.nearest_units

private theorem nearest_of_shortestWithin? {magnitude : Magnitude} {count : ℕ} {decimal : Decimal}
    (found : magnitude.shortestWithin? count = some decimal) : Nearest decimal.units magnitude := by
  have readsBack := List.find?_some found
  exact Decimal.nearest?_eq_some_iff.mp (of_decide_eq_true readsBack)

/-- What the shortest digits are before they lose their final zeros. -/
theorem exists_shortest (magnitude : Magnitude) : ∃ decimal : Decimal,
    magnitude.shortest = decimal.trim ∧ Nearest decimal.units magnitude := by
  refine ⟨_, rfl, ?_⟩
  cases found : (List.range' 1 17).findSome? magnitude.shortestWithin? with
  | none => exact magnitude.nearest_exact
  | some decimal =>
    obtain ⟨count, -, within⟩ := List.exists_of_findSome?_eq_some found
    exact nearest_of_shortestWithin? within

theorem nearest_shortest (magnitude : Magnitude) : Nearest magnitude.shortest.units magnitude := by
  obtain ⟨decimal, trimmed, nearest⟩ := magnitude.exists_shortest
  rwa [trimmed, Decimal.units, Decimal.toRat_trim]

private theorem eq_zero_of_units {magnitude : Magnitude} (none : magnitude.units = 0) :
    magnitude = zero :=
  units_injective (none.trans rfl)

theorem shortest_coefficient_eq_zero_iff (magnitude : Magnitude) :
    magnitude.shortest.coefficient = 0 ↔ magnitude.units = 0 := by
  constructor
  · intro none
    have nearest := magnitude.nearest_shortest
    rw [Decimal.units_eq, none, Nat.cast_zero, zero_mul,
      nearest_iff_eq_zero le_rfl (by norm_num)] at nearest
    rw [nearest]
    rfl
  · intro none
    rw [eq_zero_of_units none]
    decide +kernel

theorem shortest_nonzero (magnitude : Magnitude) :
    (magnitude.shortest.coefficient != 0) = (magnitude.units != 0) := by
  rw [Bool.eq_iff_iff, bne_iff_ne, bne_iff_ne, ne_eq, ne_eq, shortest_coefficient_eq_zero_iff]

def threshold : Magnitude := ⟨5000000000000000, 1075, by decide, by decide, .inr (by decide)⟩

private theorem threshold_units : threshold.units = 10 ^ 16 * unitsPerOne := by decide +kernel

private theorem threshold_shortest : threshold.shortest = ⟨1, 16⟩ := by decide +kernel

/-- The threshold is a magnitude itself, so no decimal number below it is read as one above. -/
theorem le_toRat_shortest {magnitude : Magnitude} (large : 10 ^ 16 ≤ magnitude.toRat) :
    10 ^ 16 ≤ magnitude.shortest.toRat := by
  by_contra! less
  have scale := unitsPerOne_pos
  have least : (threshold.units : ℚ) = 10 ^ 16 * unitsPerOne := by
    rw [threshold_units, Nat.cast_mul, Nat.cast_pow, Nat.cast_ofNat]
  have below : magnitude.shortest.units < threshold.units :=
    (mul_lt_mul_of_pos_right less scale).trans_eq least.symm
  have above : (threshold.units : ℚ) ≤ magnitude.units := by
    rw [least, ← toRat_mul_unitsPerOne]
    exact mul_le_mul_of_nonneg_right large scale.le
  have near := magnitude.nearest_shortest.near threshold
  rw [abs_of_neg (by linarith), abs_of_neg (by linarith)] at near
  have most : (magnitude.units : ℚ) ≤ threshold.units := by linarith
  have equal : magnitude = threshold :=
    units_injective (Nat.cast_injective (le_antisymm most above))
  rw [equal, threshold_shortest] at less
  norm_num [Decimal.toRat] at less

end Magnitude

theorem Decimal.toRat_lt_leadingPlace (decimal : Decimal) :
    decimal.toRat < 10 ^ (decimal.leadingPlace + 1) := by
  have small : decimal.coefficient < 10 ^ decimal.digits.length :=
    (Nat.length_toDigits_le_iff (by decide) Nat.length_toDigits_pos).mp le_rfl
  rw [leadingPlace_add_one, zpow_add₀ (by norm_num), mul_comm, zpow_natCast, toRat]
  exact mul_lt_mul_of_pos_right (by exact_mod_cast small) (zpow_pos (by norm_num) _)

end PocketCalc
