import PocketCalc.Proofs.ShortestDigits

/-! What is displayed of a number is read again as the number nearest to the decimal that was
written. Without a count of places the shortest digits are written, and these are read as the
number itself. -/

namespace PocketCalc

private theorem Numeral.Spells.exists_pointed {numeral : Numeral} {text : List Char}
    (spells : numeral.Spells text) (plain : numeral.exponent = none) : ∃ pointed,
      text = numeral.whole ++ pointed ∧ Digits numeral.whole ∧
        SpellsFraction numeral.fraction pointed := by
  obtain @⟨whole, fraction, pointed, exponent, marked, all, fractional, -, exponential⟩ := spells
  obtain rfl : exponent = none := plain
  cases exponential
  exact ⟨pointed, by rw [List.append_nil], all, fractional⟩

private theorem Numeral.Spells.unmarked {numeral : Numeral} {text : List Char}
    (spells : numeral.Spells text) (plain : numeral.exponent = none) : 'e' ∉ text := by
  obtain ⟨pointed, rfl, all, fractional⟩ := spells.exists_pointed plain
  have noDigit {digits : List Char} (digital : Digits digits) : 'e' ∉ digits := by
    intro member
    have digit := digital 'e' member
    contradiction
  generalize numeral.fraction = fraction at fractional
  cases fractional with
  | absent => simp [noDigit all]
  | point digital => simp [noDigit all, noDigit digital]

private theorem not_blank_of_ofNumber {character : Char} (ofNumber : OfNumber character) :
    isBlank character = false := by
  rw [Bool.eq_false_iff]
  intro blank
  rcases ofNumber with digit | mark
  · have contained : CharacterClass.blank.Contains character := blank
    exact CharacterClass.not_numeral_of_blank contained (.inl digit)
  · have none : ['.', 'e', 'E', '+', '-', ','].all (!isBlank ·) = true := by decide
    have solid := List.all_eq_true.mp none character mark
    rw [blank] at solid
    contradiction

namespace Magnitude

variable {magnitude : Magnitude}

/-- The decimal number that is written for a magnitude, in one notation or the other. -/
def displayed (magnitude : Magnitude) (precision : Option ℕ) : Decimal :=
  if magnitude.isLarge then magnitude.shortest else magnitude.shown precision

theorem isLarge_iff (magnitude : Magnitude) :
    magnitude.isLarge = true ↔ 10 ^ 16 ≤ magnitude.toRat := by
  rw [← not_lt, ← isLarge_eq_false_iff, Bool.not_eq_false]

theorem displayed_of_large (large : 10 ^ 16 ≤ magnitude.toRat) (precision : Option ℕ) :
    magnitude.displayed precision = magnitude.shortest := by
  rw [displayed, (isLarge_iff magnitude).mpr large, if_pos rfl]

theorem displayed_of_small (small : magnitude.toRat < 10 ^ 16) (precision : Option ℕ) :
    magnitude.displayed precision = magnitude.shown precision := by
  rw [displayed, (isLarge_eq_false_iff magnitude).mpr small, if_neg Bool.false_ne_true]

theorem display_of_large (large : 10 ^ 16 ≤ magnitude.toRat) (negative : Bool)
    (precision : Option ℕ) :
    magnitude.display negative precision = withMinus negative magnitude.shortest.scientific := by
  rw [display, (isLarge_iff magnitude).mpr large, if_pos rfl]

theorem shortest_ne_zero_of_large (large : 10 ^ 16 ≤ magnitude.toRat) :
    magnitude.shortest.coefficient ≠ 0 := by
  rw [ne_eq, ← Decimal.toRat_eq_zero_iff]
  exact ((by norm_num : (0 : ℚ) < 10 ^ 16).trans_le (le_toRat_shortest large)).ne'

/-- Without its separators, what is displayed is a numeral of the decimal with its sign. -/
theorem exists_displayed (magnitude : Magnitude) (negative : Bool) (precision : Option ℕ) :
    ∃ text, Numeral.Writes text (magnitude.displayed precision).toRat ∧
      (magnitude.display negative precision).filter (· != ',') =
        withMinus (negative && (magnitude.displayed precision).coefficient != 0) text := by
  obtain small | large := lt_or_ge magnitude.toRat (10 ^ 16)
  · rw [displayed_of_small small, display_of_small small, filter_groupThousands]
    have written := Decimal.positional_writes (magnitude.shown precision)
    have ⟨_, spells, _⟩ := written
    exact ⟨_, written, spells.withoutCommas _⟩
  · rw [displayed_of_large large, display_of_large large,
      bne_iff_ne.mpr (shortest_ne_zero_of_large large), Bool.and_true]
    have written := Decimal.scientific_writes magnitude.shortest
    have ⟨_, spells, _⟩ := written
    exact ⟨_, written, spells.withoutCommas _⟩

/-- Reading what is displayed takes a single rounding of the decimal number. -/
theorem read_display {other : Magnitude} {precision : Option ℕ}
    (nearest : Nearest (magnitude.displayed precision).units other) (negative : Bool) :
    Binary64.read ((magnitude.display negative precision).filter (· != ',')) =
      .ok (.finite (negative && (magnitude.displayed precision).coefficient != 0) other) := by
  obtain ⟨text, written, same⟩ := magnitude.exists_displayed negative precision
  rw [same, read_withMinus written nearest]

theorem displayed_none (magnitude : Magnitude) :
    magnitude.displayed none = magnitude.shortest := by
  rw [displayed]
  split <;> rfl

theorem withoutSeparators_display (magnitude : Magnitude) (negative : Bool)
    (precision : Option ℕ) : withoutSeparators (magnitude.display negative precision) =
      (magnitude.display negative precision).filter (· != ',') := by
  have solid : ∀ character ∈ magnitude.display negative precision, isBlank character = false :=
    fun character member =>
      not_blank_of_ofNumber (magnitude.ofNumber_display negative precision character member)
  rw [withoutSeparators, trimBlanks_eq_self solid]

end Magnitude

private theorem Numeral.mark_mem_text {numeral : Numeral} {marked : Option Sign × List Char}
    (exponent : numeral.exponent = some marked) : 'e' ∈ numeral.text := by
  rw [Numeral.text, exponent]
  simp

private theorem Decimal.le_leadingPlace {decimal : Decimal} {place : ℤ}
    (least : 10 ^ place ≤ decimal.toRat) : place ≤ decimal.leadingPlace := by
  have most := decimal.toRat_lt_leadingPlace
  exact Int.lt_add_one_iff.mp ((zpow_lt_zpow_iff_right₀ (by norm_num)).mp (least.trans_lt most))

/-- From the threshold on the exponent is positive, and its sign is written all the same. -/
theorem Magnitude.exists_scientific {magnitude : Magnitude} (large : 10 ^ 16 ≤ magnitude.toRat) :
    ∃ (numeral : Numeral) (digit : Char) (place : ℕ),
      numeral.Spells numeral.text ∧ numeral.whole = [digit] ∧ digit ≠ '0' ∧
      numeral.exponent = some (some .plus, Nat.toDigits 10 place) ∧ 16 ≤ place ∧
      numeral.text = magnitude.shortest.scientific := by
  have least : 16 ≤ magnitude.shortest.leadingPlace :=
    Decimal.le_leadingPlace (le_toRat_shortest large)
  have first := Decimal.head?_digits (shortest_ne_zero_of_large large)
  obtain ⟨numeral, scientific, written⟩ := magnitude.shortest.exists_scientific
  have spells := scientific.spells (Decimal.digits_toDigits _) (Decimal.digits_ne_nil _)
  obtain ⟨place, same⟩ := Int.eq_ofNat_of_zero_le (by omega : 0 ≤ magnitude.shortest.leadingPlace)
  have exponent : numeral.exponent = some (some .plus, Nat.toDigits 10 place) := by
    rw [scientific.exponent_eq, Numeral.placed, same, Decimal.signOf, if_neg (by omega)]
    rfl
  cases scientific with
  | @single digit digits =>
    rw [digits, List.head?_cons, ne_eq, Option.some.injEq] at first
    exact ⟨_, digit, place, spells, rfl, first, exponent, by omega, written⟩
  | @several digit others digits =>
    rw [digits, List.head?_cons, ne_eq, Option.some.injEq] at first
    exact ⟨_, digit, place, spells, rfl, first, exponent, by omega, written⟩

/-- Below the threshold there is no exponent, and no separator behind the point. -/
theorem Magnitude.plain_display {magnitude : Magnitude} (small : magnitude.toRat < 10 ^ 16)
    (negative : Bool) : 'e' ∉ magnitude.display negative none ∧
      ',' ∉ (magnitude.display negative none).dropWhile (· != '.') := by
  obtain ⟨decimal, trimmed, -⟩ := magnitude.exists_shortest
  obtain ⟨numeral, shows, written, plain, -⟩ := decimal.exists_shown
  have spells := shows.spells
  rw [written, ← trimmed] at spells
  rw [display_of_small small, shown, dropWhile_groupThousands]
  generalize (negative && magnitude.shortest.coefficient != 0) = signed
  have marked := (mem_withMinus_iff (by decide) signed _).not.mpr (spells.unmarked plain)
  have separated := (mem_withMinus_iff (by decide) signed _).not.mpr fun comma =>
    spells.ne_comma ',' comma rfl
  constructor
  · exact fun mark => marked ((mem_groupThousands mark).resolve_right (by decide))
  · exact fun comma => separated ((List.dropWhile_subset _) comma)

/-- Below the threshold the whole part of what is displayed is separated, to any number of
places. -/
theorem Magnitude.display_separates {magnitude : Magnitude} (small : magnitude.toRat < 10 ^ 16)
    (negative : Bool) (precision : Option ℕ) :
    ∃ (numeral : Numeral) (pointed separated : List Char),
      numeral.Shows (magnitude.shown precision).toRat ∧ numeral.text = numeral.whole ++ pointed ∧
      Separates numeral.whole separated ∧
      magnitude.display negative precision =
        withMinus (negative && (magnitude.shown precision).coefficient != 0)
          (separated ++ pointed) := by
  obtain ⟨exact, trimmed⟩ : ∃ exact : Decimal, magnitude.shown precision = exact.trim := by
    cases precision <;> exact ⟨_, rfl⟩
  obtain ⟨numeral, shows, written, plain, -⟩ := exact.exists_shown
  obtain ⟨pointed, whole, digital, fractional⟩ := shows.spells.exists_pointed plain
  rw [← Decimal.toRat_trim, ← trimmed] at shows
  rw [← trimmed, whole] at written
  refine ⟨numeral, pointed, groupDigits numeral.whole, shows, whole,
    separates_groupDigits shows.neat.whole, ?_⟩
  rw [display_of_small small, ← written, groupThousands_numeral shows.neat.whole digital fractional]

/-- A number that is displayed without a count of places is read again exactly, without a sign
if it is zero. It is displayed in scientific notation exactly from ten to the sixteenth on, with
one digit before the point and the place of that digit as the exponent. Below, the whole part of
its shortest digits is separated. Separators stand in whole numbers before the point, and nowhere
in scientific notation. -/
theorem displayed_numbers_read_back (text : String) {negative : Bool} {magnitude : Magnitude}
    (read : Binary64.read (withoutSeparators text.toList) = .ok (.finite negative magnitude)) :
    let shown := (formatNumber text none).toList
    Binary64.read (shown.filter (· != ',')) =
      .ok (.finite (negative && magnitude.units != 0) magnitude) ∧
    ('e' ∈ shown ↔ 10 ^ 16 ≤ magnitude.toRat) ∧
    (10 ^ 16 ≤ magnitude.toRat → ∃ (numeral : Numeral) (digit : Char) (place : ℕ),
      numeral.Spells numeral.text ∧ numeral.whole = [digit] ∧ digit ≠ '0' ∧
      numeral.exponent = some (some .plus, Nat.toDigits 10 place) ∧ 16 ≤ place ∧
      shown = withMinus negative numeral.text ∧ ',' ∉ shown) ∧
    (magnitude.toRat < 10 ^ 16 → ∃ (numeral : Numeral) (pointed separated : List Char),
      numeral.Shows magnitude.shortest.toRat ∧ numeral.text = numeral.whole ++ pointed ∧
      Separates numeral.whole separated ∧
      shown = withMinus (negative && magnitude.units != 0) (separated ++ pointed)) ∧
    ',' ∉ shown.dropWhile (· != '.') := by
  intro shown
  have text : shown = magnitude.display negative none := by
    change (formatNumber text none).toList = _
    rw [formatNumber, read]
    exact String.toList_ofList
  have nearest : Magnitude.Nearest (magnitude.displayed none).units magnitude := by
    rw [magnitude.displayed_none]
    exact magnitude.nearest_shortest
  have same := Magnitude.read_display nearest negative
  rw [magnitude.displayed_none, magnitude.shortest_nonzero] at same
  rw [text]
  refine ⟨same, ?_⟩
  obtain small | large := lt_or_ge magnitude.toRat (10 ^ 16)
  · obtain ⟨unmarked, unseparated⟩ := Magnitude.plain_display small negative
    have grouped := Magnitude.display_separates small negative none
    rw [Magnitude.shown, magnitude.shortest_nonzero] at grouped
    exact ⟨iff_of_false unmarked (not_le.mpr small),
      fun large => absurd large (not_le.mpr small), fun _ => grouped, unseparated⟩
  · obtain ⟨numeral, digit, place, spells, whole, nonzero, exponent, least, written⟩ :=
      Magnitude.exists_scientific large
    have unseparated := (mem_withMinus_iff (by decide) negative _).not.mpr fun comma =>
      spells.ne_comma ',' comma rfl
    rw [Magnitude.display_of_large large, ← written]
    refine ⟨iff_of_true ?_ large, fun _ => ?_, fun small => absurd large (not_le.mpr small),
      fun comma => ?_⟩
    · exact (mem_withMinus_iff (by decide) _ _).mpr (Numeral.mark_mem_text exponent)
    · exact ⟨numeral, digit, place, spells, whole, nonzero, exponent, least, rfl, unseparated⟩
    · exact unseparated ((List.dropWhile_subset _) comma)

/-- Without its separators the first number in scientific notation is read as it was. -/
theorem threshold_reads_back :
    let shown := (formatNumber "-10,000,000,000,000,000" none).toList
    Binary64.read (withoutSeparators "-10,000,000,000,000,000".toList) =
      .ok (.finite true Magnitude.threshold) ∧
    Binary64.read (shown.filter (· != ',')) = .ok (.finite true Magnitude.threshold) ∧
    'e' ∈ shown ∧ ',' ∉ shown := by
  intro shown
  have read : Binary64.read (withoutSeparators "-10,000,000,000,000,000".toList) =
      .ok (.finite true Magnitude.threshold) := by decide +kernel
  have large : 10 ^ 16 ≤ Magnitude.threshold.toRat := by
    rw [← Magnitude.isLarge_iff]
    decide +kernel
  have signed : (true && Magnitude.threshold.units != 0) = true := by decide +kernel
  obtain ⟨same, marked, scientific, -⟩ := displayed_numbers_read_back _ read
  obtain ⟨_, _, _, -, -, -, -, -, -, unseparated⟩ := scientific large
  rw [signed] at same
  exact ⟨read, same, marked.mpr large, unseparated⟩

end PocketCalc
