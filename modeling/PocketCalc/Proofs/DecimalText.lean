import PocketCalc.Decimal.Text
import PocketCalc.Proofs.DecimalValue
import PocketCalc.Proofs.NumeralSpelling

/-! Both written forms of a decimal number are numerals, and these have its value. -/

namespace PocketCalc

def Numeral.Writes (text : List Char) (value : ℚ) : Prop :=
  ∃ numeral : Numeral, numeral.Spells text ∧ numeral.value.toRat = value

theorem forall_mem_withMinus {property : Char → Prop} {text : List Char} (minus : property '-')
    (all : ∀ character ∈ text, property character) (negative : Bool) :
    ∀ character ∈ withMinus negative text, property character := by
  unfold withMinus
  split
  · exact List.forall_mem_cons.mpr ⟨minus, all⟩
  · exact all

theorem mem_withMinus_iff {character : Char} (other : character ≠ '-') (negative : Bool)
    (text : List Char) : character ∈ withMinus negative text ↔ character ∈ text := by
  cases negative <;> simp [withMinus, other]

namespace Decimal

theorem digits_toDigits (number : ℕ) : Numeral.Digits (Nat.toDigits 10 number) :=
  fun _ => Nat.isDigit_of_mem_toDigits (by decide) (by decide)

def padded (places number : ℕ) : List Char :=
  List.replicate (places - (Nat.toDigits 10 number).length) '0' ++ Nat.toDigits 10 number

theorem digits_padded (places number : ℕ) : Numeral.Digits (padded places number) := by
  intro character member
  obtain zero | digit := List.mem_append.mp member
  · rw [List.eq_of_mem_replicate zero]
    rfl
  · exact digits_toDigits number character digit

theorem length_padded {places number : ℕ} (positive : 0 < places) (small : number < 10 ^ places) :
    (padded places number).length = places := by
  have fits := (Nat.length_toDigits_le_iff (by decide) positive).mpr small
  rw [padded, List.length_append, List.length_replicate]
  omega

theorem ofDigitChars_padded (places number init : ℕ) :
    Nat.ofDigitChars 10 (padded places number) init =
      10 ^ (padded places number).length * init + number := by
  rw [Nat.ofDigitChars_eq_ofDigitChars_zero, padded, Nat.ofDigitChars_append,
    Nat.ofDigitChars_replicate_zero, Nat.mul_zero, Nat.ofDigitChars_ten_toDigits]

private theorem writes_whole {decimal : Decimal} (whole : 0 ≤ decimal.exponent) :
    Numeral.Writes decimal.positional decimal.toRat := by
  have written : decimal.positional = Nat.toDigits 10 decimal.numerator ++ ([] ++ []) := by
    rw [positional, if_pos whole, List.append_nil, List.append_nil]
  rw [written]
  refine ⟨_, .parts (digits_toDigits _) .absent (by simp [Nat.toDigits_ne_nil]) .absent, ?_⟩
  have one : decimal.denominator = 1 := by
    rw [denominator, show (-decimal.exponent).toNat = 0 by omega, Nat.pow_eq, pow_zero]
  rw [decimal.toRat_eq_div, one]
  simp [toRat, Numeral.value, Numeral.digits, Numeral.scale]

private theorem writes_fraction {decimal : Decimal} (fractional : decimal.exponent < 0) :
    Numeral.Writes decimal.positional decimal.toRat := by
  have positive : 0 < (-decimal.exponent).toNat := by omega
  have small : decimal.coefficient % decimal.denominator < 10 ^ (-decimal.exponent).toNat :=
    Nat.mod_lt _ decimal.denominator_pos
  have written : decimal.positional = Nat.toDigits 10 (decimal.coefficient / decimal.denominator) ++
      ('.' :: padded (-decimal.exponent).toNat (decimal.coefficient % decimal.denominator) ++ []) := by
    rw [positional, if_neg (not_le.mpr fractional), List.append_nil]
    rfl
  rw [written]
  refine ⟨_, .parts (digits_toDigits _) (.point (digits_padded _ _))
    (by simp [Nat.toDigits_ne_nil]) .absent, ?_⟩
  have coefficient : Nat.ofDigitChars 10
      (padded (-decimal.exponent).toNat (decimal.coefficient % decimal.denominator))
      (decimal.coefficient / decimal.denominator) = decimal.coefficient := by
    rw [ofDigitChars_padded, length_padded positive small]
    exact Nat.div_add_mod decimal.coefficient decimal.denominator
  have exponent : (0 : ℤ) - ((-decimal.exponent).toNat : ℕ) = decimal.exponent := by omega
  simp only [Numeral.value, Numeral.digits, Numeral.scale, Option.getD_some,
    Nat.ofDigitChars_append, Nat.ofDigitChars_ten_toDigits, length_padded positive small,
    coefficient, exponent]

theorem positional_writes (decimal : Decimal) :
    Numeral.Writes decimal.positional decimal.toRat := by
  obtain fractional | whole := lt_or_ge decimal.exponent 0
  · exact writes_fraction fractional
  · exact writes_whole whole

/-- The point goes after the first digit, if there is another. -/
theorem exists_mantissa {digits : List Char} (all : Numeral.Digits digits) (some : digits ≠ []) :
    ∃ whole fraction pointed, scientific.mantissa digits = whole ++ pointed ∧
      Numeral.Digits whole ∧ Numeral.SpellsFraction fraction pointed ∧
      whole ++ fraction.getD [] = digits ∧ (fraction.getD []).length + 1 = digits.length := by
  match digits with
  | [] => contradiction
  | [digit] => exact ⟨[digit], none, [], rfl, all, .absent, rfl, rfl⟩
  | first :: second :: rest =>
    obtain ⟨digit, others⟩ := List.forall_mem_cons.mp all
    refine ⟨[first], _, _, rfl, ?_, .point others, rfl, rfl⟩
    intro character member
    rwa [List.mem_singleton.mp member]

def signOf (place : ℤ) : Sign := if place < 0 then .minus else .plus

private theorem scale_signOf (whole : List Char) (fraction : Option (List Char)) (place : ℤ) :
    (⟨whole, fraction, some (some (signOf place), Nat.toDigits 10 place.natAbs)⟩ :
      Numeral).scale = place := by
  unfold signOf
  split <;> simp only [Numeral.scale, Nat.ofDigitChars_ten_toDigits] <;> omega

theorem scientific_writes (decimal : Decimal) :
    Numeral.Writes decimal.scientific decimal.toRat := by
  obtain ⟨whole, fraction, pointed, mantissa, all, spelled, digits, length⟩ :=
    exists_mantissa (digits_toDigits decimal.coefficient) Nat.toDigits_ne_nil
  have written : decimal.scientific = whole ++ (pointed ++ ('e' ::
      (((some (signOf decimal.leadingPlace)).map Sign.char).toList ++
        Nat.toDigits 10 decimal.leadingPlace.natAbs))) := by
    unfold scientific
    dsimp only
    rw [Decimal.digits, mantissa, List.append_assoc]
    unfold signOf
    split <;> rfl
  rw [written]
  refine ⟨_, .parts all spelled (by rw [digits]; exact Nat.toDigits_ne_nil)
    (.marked (.inl rfl) Nat.toDigits_ne_nil (digits_toDigits _)), ?_⟩
  have coefficient : Nat.ofDigitChars 10 (whole ++ fraction.getD []) 0 = decimal.coefficient := by
    rw [digits, Nat.ofDigitChars_ten_toDigits]
  have exponent : decimal.leadingPlace - (fraction.getD []).length = decimal.exponent := by
    rw [leadingPlace, Decimal.digits, ← length]
    omega
  simp only [Numeral.value, Numeral.digits, scale_signOf, coefficient, exponent]

end Decimal
end PocketCalc
