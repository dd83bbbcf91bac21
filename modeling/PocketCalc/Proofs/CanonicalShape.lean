import PocketCalc.Proofs.CanonicalText
import PocketCalc.Proofs.WrittenForms

/-! The canonical text of a number shows its value rounded to fourteen significant digits, and
the value decides it. Rounding may carry into the next decade, and then it is the place after
rounding that decides the shape. -/

namespace PocketCalc

/-- A positive value rounded to fourteen digits, a tie going to the even one, and the place of
the first. A value rounded up to a power of ten has that power's place. -/
inductive RoundedDigits (value : ℚ) : ℕ → ℤ → Prop
  | within {whole : ℕ} {place : ℤ} : (10 : ℚ) ^ place ≤ value → value < 10 ^ (place + 1) →
      Tie.toEven.Rounds (value / 10 ^ (place - 13)) whole → whole < 10 ^ 14 →
      RoundedDigits value whole place
  | carried {place : ℤ} : (10 : ℚ) ^ place ≤ value → value < 10 ^ (place + 1) →
      Tie.toEven.Rounds (value / 10 ^ (place - 13)) (10 ^ 14) →
      RoundedDigits value (10 ^ 13) (place + 1)

private theorem decade_unique {value : ℚ} {place other : ℤ} (least : (10 : ℚ) ^ place ≤ value)
    (most : value < 10 ^ (place + 1)) (above : (10 : ℚ) ^ other ≤ value)
    (below : value < 10 ^ (other + 1)) : other = place :=
  (log_eq_of_bounds above below).symm.trans (log_eq_of_bounds least most)

theorem RoundedDigits.unique {value : ℚ} {whole other : ℕ} {place elsewhere : ℤ}
    (rounded : RoundedDigits value whole place) (again : RoundedDigits value other elsewhere) :
    other = whole ∧ elsewhere = place := by
  cases rounded with
  | within least most near small =>
    cases again with
    | within above below close =>
      obtain rfl := decade_unique least most above below
      exact ⟨near.unique close, rfl⟩
    | carried above below close =>
      obtain rfl := decade_unique least most above below
      exact absurd (near.unique close) small.ne'
  | carried least most near =>
    cases again with
    | within above below close small =>
      obtain rfl := decade_unique least most above below
      exact absurd (near.unique close) small.ne
    | carried above below =>
      obtain rfl := decade_unique least most above below
      exact ⟨rfl, rfl⟩

namespace Magnitude

variable {magnitude : Magnitude}

/-- What the fourteen significant digits come to without final zeros, a carry or not. -/
theorem exists_roundedDigits (positive : 0 < magnitude.units) : ∃ whole place,
    RoundedDigits magnitude.toRat whole place ∧ 10 ^ 13 ≤ whole ∧ whole < 10 ^ 14 ∧
      (magnitude.significant 14).trim = Decimal.trim ⟨whole, place - 13⟩ := by
  obtain ⟨below, above⟩ := lastPlace_bounds 13 positive
  obtain ⟨least, most⟩ := significant_coefficient_bounds 13 positive
  have rounds : Tie.toEven.Rounds (magnitude.units / step (magnitude.lastPlace 14))
      (magnitude.significant 14).coefficient := toPlace_rounds magnitude .toEven _
  obtain ⟨whole, same⟩ :
      ∃ whole, magnitude.significant 14 = ⟨whole, magnitude.lastPlace 14⟩ := ⟨_, rfl⟩
  rw [← step_add, step_le_units_iff] at below
  rw [← step_add, units_lt_step_iff] at above
  rw [units_div_step] at rounds
  obtain ⟨place, last⟩ : ∃ place, magnitude.lastPlace 14 = place - 13 :=
    ⟨magnitude.lastPlace 14 + 13, by omega⟩
  rw [last] at same rounds
  rw [last, show place - 13 + ((13 : ℕ) : ℤ) = place by omega] at below
  rw [last, show place - 13 + ((13 + 1 : ℕ) : ℤ) = place + 1 by omega] at above
  rw [same] at rounds least most ⊢
  dsimp only at rounds least most
  obtain small | full := Nat.lt_or_eq_of_le most
  · exact ⟨whole, place, .within below above rounds small, least, small, rfl⟩
  · obtain rfl : whole = 10 * 10 ^ 13 := full
    refine ⟨10 ^ 13, place + 1, .carried below above rounds, le_rfl, by norm_num, ?_⟩
    rw [Decimal.trim_mul_ten, show place - 13 + 1 = place + 1 - 13 by omega]

end Magnitude

theorem isPositional_iff (place : ℤ) : isPositional place = true ↔ -6 ≤ place ∧ place < 21 := by
  rw [isPositional, Bool.and_eq_true, decide_eq_true_iff, decide_eq_true_iff]

private theorem leadingPlace_of_fourteen {whole : ℕ} (place : ℤ) (least : 10 ^ 13 ≤ whole)
    (most : whole < 10 ^ 14) : Decimal.leadingPlace ⟨whole, place - 13⟩ = place := by
  have longer := (Nat.length_toDigits_le_iff (b := 10) (n := whole) (k := 13)
    (by decide) (by decide)).not.mpr (not_lt.mpr least)
  have shorter := (Nat.length_toDigits_le_iff (b := 10) (n := whole) (k := 14)
    (by decide) (by decide)).mpr most
  rw [Decimal.leadingPlace, Decimal.digits]
  dsimp only
  omega

/-- Fourteen digits are written without their final zeros, in the form their place asks for. -/
theorem exists_canonical {magnitude : Magnitude} {whole : ℕ} {place : ℤ} (least : 10 ^ 13 ≤ whole)
    (most : whole < 10 ^ 14)
    (same : (magnitude.significant 14).trim = Decimal.trim ⟨whole, place - 13⟩) (negative : Bool) :
    ∃ digits zeros, Nat.toDigits 10 whole = digits ++ List.replicate zeros '0' ∧
      digits ≠ [] ∧ digits.getLast? ≠ some '0' ∧
      ∃ numeral : Numeral,
        (if -6 ≤ place ∧ place < 21 then numeral.Positional digits place
          else numeral.Scientific digits place) ∧
        numeral.Shows (whole * 10 ^ (place - 13)) ∧
        canonical (.finite negative magnitude) = .ofList (withMinus negative numeral.text) := by
  have nonzero : (⟨whole, place - 13⟩ : Decimal).coefficient ≠ 0 := by
    dsimp only
    omega
  have begun := leadingPlace_of_fourteen place least most
  obtain ⟨remains, last, zeros, digits, -⟩ := Decimal.exists_trim nonzero
  have text : canonical (.finite negative magnitude) = .ofList (withMinus negative
      (if -6 ≤ place ∧ place < 21 then (Decimal.trim ⟨whole, place - 13⟩).positional
        else (Decimal.trim ⟨whole, place - 13⟩).scientific)) := by
    rw [canonical, significantDigits, same, Decimal.leadingPlace_trim nonzero, begun,
      bne_iff_ne.mpr remains, Bool.and_true, if_congr (isPositional_iff place) rfl rfl]
  refine ⟨_, zeros, digits, Decimal.digits_ne_nil _, last, ?_⟩
  rw [text]
  split
  · obtain ⟨numeral, positional, shows, written⟩ := Decimal.exists_shown_positional nonzero
    rw [begun] at positional
    exact ⟨numeral, positional, shows, by rw [written]⟩
  · obtain ⟨numeral, scientific, shows, written⟩ := Decimal.exists_shown_scientific nonzero
    rw [begun] at scientific
    exact ⟨numeral, scientific, shows, by rw [written]⟩

private theorem canonical_of_zero {magnitude : Magnitude} (zero : magnitude.units = 0)
    (negative : Bool) : canonical (.finite negative magnitude) = "0" := by
  have units := Magnitude.significant_of_zero zero 14
  rw [Decimal.units_eq, mul_eq_zero, or_iff_left (step_pos _).ne', Nat.cast_eq_zero] at units
  rw [canonical, significantDigits, Decimal.trim_of_zero units]
  cases negative <;> rfl

theorem isNegative_iff (negative : Bool) (magnitude : Magnitude) :
    (Binary64.finite negative magnitude).isNegative = true ↔
      negative = true ∧ magnitude.units ≠ 0 := by
  have power : 2 ^ magnitude.exponent ≠ 0 := (Nat.two_pow_pos _).ne'
  rw [Binary64.isNegative, Bool.and_eq_true, bne_iff_ne, magnitude.units_eq, ne_eq, ne_eq,
    Nat.mul_eq_zero, or_iff_left power]

private theorem head?_withMinus {numeral : Numeral} {text : List Char}
    (spells : numeral.Spells text) (negative : Bool) :
    (withMinus negative text).head? = some '-' ↔ negative = true := by
  obtain ⟨first, others, rfl, begun⟩ := spells.exists_first
  cases negative with
  | true => exact iff_of_true rfl rfl
  | false =>
    refine iff_of_false (fun minus => ?_) Bool.false_ne_true
    obtain rfl : first = '-' := Option.some.inj minus
    rcases begun with digit | point <;> contradiction

/-- The canonical text of a number shows the one rounding of its exact value to fourteen
significant digits, and the place of the first decides the form: the digits go around the point
from the millionths up to the twenty-first digit, and with an exponent everywhere else. No zero
is superfluous, and a minus stands in front exactly of what is less than zero. -/
theorem canonical_is_exact (negative : Bool) (magnitude : Magnitude) :
    let text := canonical (.finite negative magnitude)
    (text.toList.head? = some '-' ↔ (Binary64.finite negative magnitude).isNegative = true) ∧
    (magnitude.units = 0 → text = "0") ∧
    (magnitude.units ≠ 0 → ∃ whole place,
      (∀ other elsewhere, RoundedDigits magnitude.toRat other elsewhere ↔
        other = whole ∧ elsewhere = place) ∧
      10 ^ 13 ≤ whole ∧ whole < 10 ^ 14 ∧
      ∃ digits zeros, Nat.toDigits 10 whole = digits ++ List.replicate zeros '0' ∧
        digits ≠ [] ∧ digits.getLast? ≠ some '0' ∧
        ∃ numeral : Numeral,
          (if -6 ≤ place ∧ place < 21 then numeral.Positional digits place
            else numeral.Scientific digits place) ∧
          numeral.Shows (whole * 10 ^ (place - 13)) ∧
          text = .ofList (withMinus negative numeral.text)) := by
  intro text
  rw [isNegative_iff]
  obtain zero | positive := Nat.eq_zero_or_pos magnitude.units
  · have shown : text = "0" := canonical_of_zero zero negative
    refine ⟨?_, fun _ => shown, fun nonzero => absurd zero nonzero⟩
    rw [shown]
    exact iff_of_false (by decide) fun less => less.2 zero
  · obtain ⟨whole, place, rounded, least, most, same⟩ := Magnitude.exists_roundedDigits positive
    obtain ⟨digits, zeros, trimmed, present, last, numeral, shape, shows, written⟩ :=
      exists_canonical least most same negative
    refine ⟨?_, fun zero => absurd zero positive.ne', fun _ => ⟨whole, place, ?_, least, most,
      digits, zeros, trimmed, present, last, numeral, shape, shows, written⟩⟩
    · rw [show text = _ from written, String.toList_ofList, head?_withMinus shows.spells,
        and_iff_left positive.ne']
    · intro other elsewhere
      refine ⟨rounded.unique, ?_⟩
      rintro ⟨rfl, rfl⟩
      exact rounded

/-- The number nearest to a millionth is less than that, and its digits are carried up to it. -/
theorem canonical_is_exact_below_a_millionth :
    let magnitude : Magnitude :=
      ⟨0x10c6f7a0b5ed8d, 1002, by decide, by decide, .inr (by decide)⟩
    magnitude.units ≠ 0 ∧ magnitude.toRat < 1 / 10 ^ 6 ∧
    RoundedDigits magnitude.toRat (10 ^ 13) (-6) ∧
    ∃ digits, ∃ numeral : Numeral, digits ≠ [] ∧ numeral.Positional digits (-6) ∧
      numeral.Shows (1 / 10 ^ 6) ∧
      canonical (.finite true magnitude) = .ofList ('-' :: numeral.text) := by
  intro magnitude
  have value : magnitude.toRat = 0x10c6f7a0b5ed8d / 2 ^ 72 := by
    rw [Magnitude.toRat_eq]
    norm_num [magnitude]
  have nonzero : magnitude.units ≠ 0 :=
    Nat.mul_ne_zero (by decide) (Nat.two_pow_pos _).ne'
  have rounded : RoundedDigits magnitude.toRat (10 ^ 13) (-6) := by
    rw [value]
    refine @RoundedDigits.carried _ (-7) ?_ ?_ (Tie.Rounds.of_lt ?_)
    · norm_num
    · norm_num
    · norm_num [abs_lt]
  obtain ⟨whole, place, only, -, -, digits, -, -, present, -, numeral, shape, shows, written⟩ :=
    (canonical_is_exact true magnitude).2.2 nonzero
  obtain ⟨rfl, rfl⟩ := (only _ _).mp rounded
  rw [if_pos (by decide)] at shape
  refine ⟨nonzero, by rw [value]; norm_num, rounded, digits, numeral, present, shape, ?_, written⟩
  convert shows using 1
  norm_num

end PocketCalc
