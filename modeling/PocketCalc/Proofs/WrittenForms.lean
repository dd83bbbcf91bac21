import PocketCalc.Proofs.DecimalText
import PocketCalc.Proofs.SignificantDigits
import PocketCalc.Proofs.StableDigits

/-! The shapes that the two written forms of a decimal number have. A shape is a numeral made
of pieces of the coefficient's digits and of zeros, so there is no digit in it that is not one
of the two, and the place of the first digit decides which pieces. -/

namespace PocketCalc

section
variable {number : ℕ}

private theorem exists_digitChar {digit : Char} (isDigit : digit.isDigit = true) :
    ∃ value < 10, Nat.digitChar value = digit := by
  obtain ⟨above, below⟩ : 48 ≤ digit.toNat ∧ digit.toNat ≤ 57 := Char.isDigit_iff_toNat.mp isDigit
  refine ⟨digit.toNat - 48, by omega, Char.toNat_inj.mp ?_⟩
  rw [Nat.toNat_digitChar_of_lt_ten (by omega)]
  omega

/-- Digits behind those of a positive number are the digits of what they amount to. -/
theorem toDigits_append (positive : 0 < number) {digits : List Char}
    (all : Numeral.Digits digits) : Nat.toDigits 10 number ++ digits =
      Nat.toDigits 10 (Nat.ofDigitChars 10 digits number) := by
  induction digits generalizing number with
  | nil => rw [List.append_nil, Nat.ofDigitChars_nil]
  | cons digit rest ih =>
    obtain ⟨isDigit, others⟩ := List.forall_mem_cons.mp all
    obtain ⟨value, small, rfl⟩ := exists_digitChar isDigit
    have one := Nat.toDigits_append_toDigits (by decide : 1 < 10) positive small
    rw [Nat.toDigits_of_lt_base small] at one
    rw [Nat.ofDigitChars_cons_digitChar_of_lt_ten small, ← ih (by omega) others, ← one,
      List.append_assoc, List.singleton_append]

private theorem digits_zeros (zeros : ℕ) : Numeral.Digits (List.replicate zeros '0') := by
  intro digit member
  rw [List.eq_of_mem_replicate member]
  rfl

private theorem toDigits_mul_pow (positive : 0 < number) (zeros : ℕ) :
    Nat.toDigits 10 (number * 10 ^ zeros) =
      Nat.toDigits 10 number ++ List.replicate zeros '0' := by
  rw [toDigits_append positive (digits_zeros zeros), Nat.ofDigitChars_replicate_zero, Nat.mul_comm]

/-- The digits of a number are those of its leading part and, to the last places, those of the
remainder. -/
theorem toDigits_div_mod {places : ℕ} (some : 0 < places) (leading : 0 < number / 10 ^ places) :
    Nat.toDigits 10 number = Nat.toDigits 10 (number / 10 ^ places) ++
      Decimal.padded places (number % 10 ^ places) := by
  have small : number % 10 ^ places < 10 ^ places := Nat.mod_lt _ (Nat.pow_pos (by decide))
  rw [toDigits_append leading (Decimal.digits_padded _ _), Decimal.ofDigitChars_padded,
    Decimal.length_padded some small, Nat.div_add_mod]

private theorem getLast?_toDigits (number : ℕ) :
    (Nat.toDigits 10 number).getLast? = some (Nat.digitChar (number % 10)) := by
  rw [Nat.toDigits_eq_if (by decide)]
  split
  next small => rw [Nat.mod_eq_of_lt small, List.getLast?_singleton]
  next => rw [List.getLast?_append, List.getLast?_singleton, Option.some_or]

private theorem head?_toDigits (positive : 0 < number) :
    (Nat.toDigits 10 number).head? ≠ some '0' := by
  induction number using Nat.strong_induction_on with
  | _ number ih =>
    rw [Nat.toDigits_eq_if (by decide)]
    split
    next small =>
      rw [List.head?_singleton, ne_eq, Option.some.injEq, Nat.digitChar_eq_zero]
      exact positive.ne'
    next large =>
      rw [List.head?_append_of_ne_nil _ Nat.toDigits_ne_nil]
      exact ih _ (by omega) (by omega)

end

namespace Numeral

theorem spells_text {numeral : Numeral} (all : Digits numeral.digits)
    (present : numeral.digits ≠ [])
    (exponent : ∀ marked ∈ numeral.exponent, marked.2 ≠ [] ∧ Digits marked.2) :
    numeral.Spells numeral.text := by
  obtain ⟨whole, fraction, marked⟩ := numeral
  obtain ⟨left, right⟩ := List.forall_mem_append.mp all
  match fraction, marked with
  | none, none => simpa [text] using Spells.parts left .absent present .absent
  | some _, none => simpa [text] using Spells.parts left (.point right) present .absent
  | none, some (_, _) =>
    obtain ⟨some, digits⟩ := exponent _ rfl
    simpa [text] using Spells.parts left .absent present (.marked (.inl rfl) some digits)
  | some _, some (_, _) =>
    obtain ⟨some, digits⟩ := exponent _ rfl
    simpa [text] using Spells.parts left (.point right) present (.marked (.inl rfl) some digits)

theorem Spells.toRat_eq {numeral : Numeral} {text : List Char} {value : ℚ}
    (spells : numeral.Spells text) (written : Writes text value) :
    numeral.value.toRat = value := by
  obtain ⟨other, alternative, rfl⟩ := written
  rw [alternative.unique spells]

/-- No zero in front of another digit, and none at the end of a fraction. -/
structure Neat (numeral : Numeral) : Prop where
  whole : numeral.whole ≠ []
  leading : numeral.whole.head? = some '0' → numeral.whole = ['0']
  fraction : ∀ digits ∈ numeral.fraction, digits ≠ [] ∧ digits.getLast? ≠ some '0'

structure Shows (numeral : Numeral) (value : ℚ) : Prop where
  spells : numeral.Spells numeral.text
  value_eq : numeral.value.toRat = value
  neat : numeral.Neat

/-- Digits whose first one has a place, with zeros up to the point on either side of them. -/
inductive Positional (digits : List Char) (place : ℤ) : Numeral → Prop
  | fraction (zeros : ℕ) : place + 1 = -zeros →
      Positional digits place ⟨['0'], some (List.replicate zeros '0' ++ digits), none⟩
  | mixed {before after} : digits = before ++ after → before ≠ [] → after ≠ [] →
      place + 1 = before.length → Positional digits place ⟨before, some after, none⟩
  | whole (zeros : ℕ) : place + 1 = digits.length + zeros →
      Positional digits place ⟨digits ++ List.replicate zeros '0', none, none⟩

def placed (place : ℤ) : Option Sign × List Char :=
  (some (Decimal.signOf place), Nat.toDigits 10 place.natAbs)

/-- Digits whose first one has a place, which is the exponent. -/
inductive Scientific (digits : List Char) (place : ℤ) : Numeral → Prop
  | single {digit} : digits = [digit] →
      Scientific digits place ⟨[digit], none, some (placed place)⟩
  | several {first others} : digits = first :: others → others ≠ [] →
      Scientific digits place ⟨[first], some others, some (placed place)⟩

section
variable {numeral : Numeral} {digits : List Char} {place : ℤ}

private theorem Positional.exponent_eq (positional : numeral.Positional digits place) :
    numeral.exponent = none := by
  cases positional <;> rfl

private theorem Positional.length_fraction (positional : numeral.Positional digits place) :
    (numeral.fraction.getD []).length = (digits.length - (place + 1)).toNat := by
  cases positional with
  | fraction zeros begun =>
    rw [Option.getD_some, List.length_append, List.length_replicate]
    omega
  | mixed same before after begun =>
    rw [Option.getD_some, begun, same, List.length_append]
    omega
  | whole zeros begun =>
    rw [Option.getD_none, List.length_nil]
    omega

private theorem Positional.digits_eq (positional : numeral.Positional digits place) :
    ∃ before after, numeral.digits =
      List.replicate before '0' ++ (digits ++ List.replicate after '0') := by
  cases positional with
  | fraction zeros => exact ⟨zeros + 1, 0, by simp [Numeral.digits, List.replicate_succ]⟩
  | mixed same => exact ⟨0, 0, by simp [Numeral.digits, same]⟩
  | whole zeros => exact ⟨0, zeros, by simp [Numeral.digits]⟩

private theorem Positional.spells (positional : numeral.Positional digits place)
    (all : Digits digits) (present : digits ≠ []) : numeral.Spells numeral.text := by
  obtain ⟨before, after, same⟩ := positional.digits_eq
  refine spells_text ?_ ?_ (by rw [positional.exponent_eq]; nofun)
  · rw [same]
    exact List.forall_mem_append.mpr
      ⟨digits_zeros before, List.forall_mem_append.mpr ⟨all, digits_zeros after⟩⟩
  · rw [same]
    exact List.append_ne_nil_of_right_ne_nil _ (List.append_ne_nil_of_left_ne_nil present _)

private theorem Positional.neat (positional : numeral.Positional digits place)
    (present : digits ≠ [])
    (first : digits.head? ≠ some '0') (last : digits.getLast? ≠ some '0') : numeral.Neat := by
  cases positional with
  | fraction zeros =>
    refine ⟨List.cons_ne_nil _ _, fun _ => rfl, ?_⟩
    rintro _ ⟨⟩
    rw [List.getLast?_append_of_ne_nil _ present]
    exact ⟨List.append_ne_nil_of_right_ne_nil _ present, last⟩
  | @mixed before after same some more =>
    subst same
    rw [List.head?_append_of_ne_nil _ some] at first
    rw [List.getLast?_append_of_ne_nil _ more] at last
    refine ⟨some, fun zero => absurd zero first, ?_⟩
    rintro _ ⟨⟩
    exact ⟨more, last⟩
  | whole zeros =>
    refine ⟨List.append_ne_nil_of_left_ne_nil present _, fun zero => ?_, nofun⟩
    rw [List.head?_append_of_ne_nil _ present] at zero
    exact absurd zero first

private theorem Scientific.digits_eq (scientific : numeral.Scientific digits place) :
    numeral.digits = digits := by
  cases scientific with
  | single same => rw [same, Numeral.digits, Option.getD_none, List.append_nil]
  | several same => rw [same, Numeral.digits, Option.getD_some, List.singleton_append]

theorem Scientific.exponent_eq (scientific : numeral.Scientific digits place) :
    numeral.exponent = some (placed place) := by
  cases scientific <;> rfl

theorem Scientific.spells (scientific : numeral.Scientific digits place) (all : Digits digits)
    (present : digits ≠ []) : numeral.Spells numeral.text := by
  refine spells_text (by rwa [scientific.digits_eq]) (by rwa [scientific.digits_eq]) ?_
  rw [scientific.exponent_eq]
  rintro _ ⟨⟩
  exact ⟨Nat.toDigits_ne_nil, Decimal.digits_toDigits _⟩

private theorem Scientific.neat (scientific : numeral.Scientific digits place)
    (first : digits.head? ≠ some '0') (last : digits.getLast? ≠ some '0') : numeral.Neat := by
  cases scientific with
  | single same =>
    subst same
    exact ⟨List.cons_ne_nil _ _, fun zero => absurd zero first, nofun⟩
  | several same more =>
    subst same
    rw [List.getLast?_cons_of_ne_nil more] at last
    refine ⟨List.cons_ne_nil _ _, fun zero => absurd zero first, ?_⟩
    rintro _ ⟨⟩
    exact ⟨more, last⟩

end

end Numeral

namespace Decimal

variable {decimal : Decimal}

theorem leadingPlace_add_one (decimal : Decimal) :
    decimal.leadingPlace + 1 = decimal.exponent + decimal.digits.length := by
  rw [leadingPlace]
  omega

def IsPositional (decimal : Decimal) (numeral : Numeral) : Prop :=
  numeral.Positional decimal.digits decimal.leadingPlace ∧ numeral.text = decimal.positional

section
variable {coefficient places : ℕ}

private theorem positional_of_fractional (coefficient : ℕ) (fractional : 0 < places) :
    positional ⟨coefficient, -places⟩ = Nat.toDigits 10 (coefficient / 10 ^ places) ++
      '.' :: padded places (coefficient % 10 ^ places) := by
  rw [positional, if_neg (by dsimp only; omega)]
  simp only [denominator, neg_neg, Int.toNat_natCast, Nat.pow_eq, padded]

private theorem exists_fraction (fractional : 0 < places) (small : coefficient < 10 ^ places) :
    ∃ numeral, IsPositional ⟨coefficient, -places⟩ numeral := by
  have fits := (Nat.length_toDigits_le_iff (by decide) fractional).mpr small
  refine ⟨_, .fraction (places - (Nat.toDigits 10 coefficient).length) ?_, ?_⟩
  · rw [leadingPlace_add_one, digits]
    dsimp only
    omega
  · rw [positional_of_fractional coefficient fractional, Nat.div_eq_of_lt small,
      Nat.mod_eq_of_lt small, Nat.toDigits_zero]
    simp [Numeral.text, padded, digits]

private theorem exists_mixed (fractional : 0 < places) (leading : 0 < coefficient / 10 ^ places) :
    ∃ numeral, IsPositional ⟨coefficient, -places⟩ numeral := by
  have remainder : coefficient % 10 ^ places < 10 ^ places :=
    Nat.mod_lt _ (Nat.pow_pos (by decide))
  have length := length_padded fractional remainder
  have digits_eq := toDigits_div_mod fractional leading
  refine ⟨_, .mixed digits_eq Nat.toDigits_ne_nil (List.ne_nil_of_length_pos (by omega)) ?_, ?_⟩
  · rw [leadingPlace_add_one, digits, digits_eq, List.length_append, length]
    dsimp only
    omega
  · rw [positional_of_fractional coefficient fractional]
    simp [Numeral.text]

private theorem exists_whole (positive : 0 < coefficient) (zeros : ℕ) :
    ∃ numeral, IsPositional ⟨coefficient, zeros⟩ numeral := by
  refine ⟨_, .whole zeros (by rw [leadingPlace_add_one, add_comm]), ?_⟩
  rw [positional, if_pos (Int.natCast_nonneg zeros), numerator, Int.toNat_natCast, Nat.pow_eq,
    toDigits_mul_pow positive, digits]
  simp [Numeral.text]

end

private theorem exists_positional (nonzero : decimal.coefficient ≠ 0) :
    ∃ numeral, decimal.IsPositional numeral := by
  obtain ⟨coefficient, exponent⟩ := decimal
  obtain ⟨places, rfl | rfl⟩ := Int.eq_nat_or_neg exponent
  · exact exists_whole (Nat.pos_of_ne_zero nonzero) places
  obtain rfl | fractional := Nat.eq_zero_or_pos places
  · exact exists_whole (Nat.pos_of_ne_zero nonzero) 0
  obtain none | leading := Nat.eq_zero_or_pos (coefficient / 10 ^ places)
  · rw [Nat.div_eq_zero_iff_lt (Nat.pow_pos (by decide))] at none
    exact exists_fraction fractional none
  · exact exists_mixed fractional leading

theorem exists_scientific (decimal : Decimal) : ∃ numeral : Numeral,
    numeral.Scientific decimal.digits decimal.leadingPlace ∧ numeral.text = decimal.scientific := by
  have sign : (if decimal.leadingPlace < 0 then '-' else '+') = (signOf decimal.leadingPlace).char := by
    unfold signOf
    split <;> rfl
  unfold scientific
  dsimp only
  rw [sign]
  match same : decimal.digits with
  | [] => exact absurd same Nat.toDigits_ne_nil
  | [digit] => exact ⟨_, .single rfl, by simp [Numeral.text, Numeral.placed, scientific.mantissa]⟩
  | first :: second :: rest =>
    refine ⟨_, .several rfl (List.cons_ne_nil second rest), ?_⟩
    simp [Numeral.text, Numeral.placed, scientific.mantissa]

private theorem exists_trimmed {coefficient : ℕ} (exponent : ℤ) (nonzero : coefficient ≠ 0) :
    ∃ zeros : ℕ, (trimmed coefficient exponent).coefficient * 10 ^ zeros = coefficient ∧
      (trimmed coefficient exponent).exponent = exponent + zeros ∧
      (trimmed coefficient exponent).coefficient % 10 ≠ 0 := by
  induction coefficient, exponent using trimmed.induct with
  | case1 => exact absurd rfl nonzero
  | case2 coefficient exponent _ divides ih =>
    obtain ⟨zeros, whole, place, last⟩ := ih (by omega)
    rw [trimmed, if_neg nonzero, if_pos divides]
    refine ⟨zeros + 1, ?_, ?_, last⟩
    · rw [pow_succ, ← mul_assoc, whole, Nat.div_mul_cancel (Nat.dvd_of_mod_eq_zero divides)]
    · rw [place, Nat.cast_add_one]
      ring
  | case3 coefficient exponent _ last =>
    rw [trimmed, if_neg nonzero, if_neg last]
    exact ⟨0, by rw [pow_zero, mul_one], by rw [Nat.cast_zero, add_zero], last⟩

theorem trim_of_zero (zero : decimal.coefficient = 0) : decimal.trim = ⟨0, 0⟩ := by
  rw [trim, trimmed, if_pos zero]

/-- Trimming takes zeros off the end of the digits, as many as there are. -/
theorem exists_trim (nonzero : decimal.coefficient ≠ 0) :
    decimal.trim.coefficient ≠ 0 ∧ decimal.trim.digits.getLast? ≠ some '0' ∧
    ∃ zeros : ℕ, decimal.digits = decimal.trim.digits ++ List.replicate zeros '0' ∧
      decimal.trim.exponent = decimal.exponent + zeros := by
  obtain ⟨zeros, whole, place, last⟩ := exists_trimmed decimal.exponent nonzero
  have remains : decimal.trim.coefficient ≠ 0 := fun zero => last (by rw [← trim, zero])
  refine ⟨remains, ?_, zeros, ?_, place⟩
  · rw [digits, getLast?_toDigits, ne_eq, Option.some.injEq, Nat.digitChar_eq_zero]
    exact last
  · rw [digits, digits, ← toDigits_mul_pow (Nat.pos_of_ne_zero remains)]
    exact congrArg _ whole.symm

theorem leadingPlace_trim (nonzero : decimal.coefficient ≠ 0) :
    decimal.trim.leadingPlace = decimal.leadingPlace := by
  obtain ⟨-, -, zeros, digits, place⟩ := exists_trim nonzero
  rw [leadingPlace, leadingPlace, digits, place, List.length_append, List.length_replicate]
  omega

theorem digits_ne_nil (decimal : Decimal) : decimal.digits ≠ [] := Nat.toDigits_ne_nil

theorem head?_digits (nonzero : decimal.coefficient ≠ 0) :
    decimal.digits.head? ≠ some '0' :=
  head?_toDigits (Nat.pos_of_ne_zero nonzero)

theorem shows_of_trim {numeral : Numeral} (spells : numeral.Spells numeral.text)
    (written : Numeral.Writes numeral.text decimal.trim.toRat) (neat : numeral.Neat) :
    numeral.Shows decimal.toRat := by
  rw [toRat_trim] at written
  exact ⟨spells, spells.toRat_eq written, neat⟩

theorem exists_shown_positional (nonzero : decimal.coefficient ≠ 0) : ∃ numeral : Numeral,
    numeral.Positional decimal.trim.digits decimal.leadingPlace ∧
      numeral.Shows decimal.toRat ∧ numeral.text = decimal.trim.positional := by
  obtain ⟨remains, last, -⟩ := exists_trim nonzero
  obtain ⟨numeral, positional, written⟩ := exists_positional remains
  have spells := positional.spells (digits_toDigits _) (digits_ne_nil _)
  have neat := positional.neat (digits_ne_nil _) (head?_digits remains) last
  rw [leadingPlace_trim nonzero] at positional
  exact ⟨numeral, positional, shows_of_trim spells (written ▸ positional_writes _) neat, written⟩

theorem exists_shown_scientific (nonzero : decimal.coefficient ≠ 0) : ∃ numeral : Numeral,
    numeral.Scientific decimal.trim.digits decimal.leadingPlace ∧
      numeral.Shows decimal.toRat ∧ numeral.text = decimal.trim.scientific := by
  obtain ⟨remains, last, -⟩ := exists_trim nonzero
  obtain ⟨numeral, scientific, written⟩ := exists_scientific decimal.trim
  have spells := scientific.spells (digits_toDigits _) (digits_ne_nil _)
  have neat := scientific.neat (head?_digits remains) last
  rw [leadingPlace_trim nonzero] at scientific
  exact ⟨numeral, scientific, shows_of_trim spells (written ▸ scientific_writes _) neat, written⟩

theorem toRat_eq_zero_iff (decimal : Decimal) : decimal.toRat = 0 ↔ decimal.coefficient = 0 := by
  have power : (10 : ℚ) ^ decimal.exponent ≠ 0 := (zpow_pos (by norm_num) _).ne'
  rw [toRat, mul_eq_zero, or_iff_left power, Nat.cast_eq_zero]

theorem trim_coefficient_eq_zero_iff (decimal : Decimal) :
    decimal.trim.coefficient = 0 ↔ decimal.toRat = 0 := by
  rw [← toRat_eq_zero_iff, toRat_trim]

/-- What a decimal number is written as without an exponent, be it zero. Its fraction has no more
digits than the places of the number. -/
theorem exists_shown (decimal : Decimal) : ∃ numeral : Numeral,
    numeral.Shows decimal.toRat ∧ numeral.text = decimal.trim.positional ∧
      numeral.exponent = none ∧ (numeral.fraction.getD []).length ≤ (-decimal.exponent).toNat := by
  by_cases zero : decimal.coefficient = 0
  · rw [trim_of_zero zero, (toRat_eq_zero_iff decimal).mpr zero]
    refine ⟨⟨['0'], none, none⟩, ⟨?_, ?_, ?_⟩, rfl, rfl, Nat.zero_le _⟩
    · exact Numeral.spells_text (by simp [Numeral.digits, Numeral.Digits]) (by simp [Numeral.digits]) nofun
    · rw [toRat_eq_zero_iff]
      rfl
    · exact ⟨List.cons_ne_nil _ _, fun _ => rfl, by simp⟩
  · obtain ⟨numeral, positional, shows, written⟩ := exists_shown_positional zero
    refine ⟨numeral, shows, written, positional.exponent_eq, ?_⟩
    obtain ⟨-, -, zeros, digits, place⟩ := exists_trim zero
    have begun := leadingPlace_trim zero
    rw [leadingPlace, place] at begun
    rw [positional.length_fraction, ← begun]
    omega

end Decimal

end PocketCalc
