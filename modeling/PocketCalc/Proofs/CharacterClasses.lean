import PocketCalc.Token.Scan

/-! The characters that lexemes begin with, and those between lexemes, are of different
classes. The class of the first character thus tells what kind of lexeme it is. -/

namespace PocketCalc

private theorem exists_range_of_inRanges {code : Nat} {ranges : List (Nat × Nat)}
    (within : inRanges code ranges = true) : ∃ range ∈ ranges, range.1 ≤ code ∧ code ≤ range.2 := by
  induction ranges with
  | nil => contradiction
  | cons range later ih =>
    simp only [inRanges, Bool.and_eq_true, Bool.or_eq_true, decide_eq_true_eq] at within
    obtain ⟨above, below | within⟩ := within
    · exact ⟨range, List.mem_cons_self, above, below⟩
    · obtain ⟨range, member, bounds⟩ := ih within
      exact ⟨range, List.mem_cons_of_mem _ member, bounds⟩

private theorem le_of_inRanges {code first last : Nat} {later : List (Nat × Nat)}
    (within : inRanges code ((first, last) :: later) = true) : first ≤ code := by
  simp only [inRanges, Bool.and_eq_true, decide_eq_true_eq] at within
  exact within.1

def codes (ranges : List (Nat × Nat)) : List Nat :=
  ranges.flatMap fun (first, last) => List.range' first (last + 1 - first)

private theorem mem_codes_of_inRanges {code : Nat} {ranges : List (Nat × Nat)}
    (within : inRanges code ranges = true) : code ∈ codes ranges := by
  obtain ⟨range, member, above, below⟩ := exists_range_of_inRanges within
  refine List.mem_flatMap.mpr ⟨range, member, ?_⟩
  simp only [List.mem_range'_1]
  omega

inductive CharacterClass where
  | letter
  | numeral
  | operator
  | blank
deriving DecidableEq

def CharacterClass.Contains : CharacterClass → Char → Prop
  | .letter, character => isAlphabetic character = true
  | .numeral, character => character.isDigit = true ∨ character = '.'
  | .operator, character => (Token.ofOperator? character).isSome = true
  | .blank, character => isBlank character = true

namespace CharacterClass

def operators : List Char := ['+', '-', '/', '*', '^', '(', ')']

private theorem Contains.mem_operators {character : Char}
    (contained : operator.Contains character) : character ∈ operators := by
  change (Token.ofOperator? character).isSome = true at contained
  unfold Token.ofOperator? at contained
  split at contained <;> first | decide | contradiction

theorem Contains.mem_blanks {character : Char} (contained : blank.Contains character) :
    character.toNat ∈ codes blankRanges :=
  mem_codes_of_inRanges contained

theorem Contains.bounds {character : Char} (contained : numeral.Contains character) :
    0x2E ≤ character.toNat ∧ character.toNat ≤ 0x39 ∧ character.toNat ≠ 0x2F := by
  obtain digit | rfl := contained
  · have bounds : 0x30 ≤ character.toNat ∧ character.toNat ≤ 0x39 := by
      simpa [Char.isDigit, UInt32.le_iff_toNat_le] using digit
    omega
  · decide

theorem not_letter_of_numeral {character : Char} (contained : numeral.Contains character) :
    ¬ letter.Contains character := by
  intro isLetter
  have above : 0x41 ≤ character.toNat := le_of_inRanges isLetter
  have bounds := contained.bounds
  omega

theorem not_letter_of_operator {character : Char} (contained : operator.Contains character) :
    ¬ letter.Contains character := by
  have none : operators.all (!isAlphabetic ·) = true := by decide
  have noLetter := List.all_eq_true.mp none character contained.mem_operators
  exact Bool.eq_false_iff.mp ((Bool.not_eq_true' _).mp noLetter)

theorem not_numeral_of_operator {character : Char} (contained : operator.Contains character) :
    ¬ numeral.Contains character := by
  have none : operators.all (fun other => !(other.isDigit || other == '.')) = true := by decide
  have noNumeral := List.all_eq_true.mp none character contained.mem_operators
  simpa [Contains] using noNumeral

theorem not_letter_of_blank {character : Char} (contained : blank.Contains character) :
    ¬ letter.Contains character := by
  have none : ∀ code ∈ codes blankRanges, inRanges code alphabeticRanges = false := by
    decide +kernel
  exact Bool.eq_false_iff.mp (none _ contained.mem_blanks)

theorem not_numeral_of_blank {character : Char} (contained : blank.Contains character) :
    ¬ numeral.Contains character := by
  have none : ∀ code ∈ codes blankRanges, code < 0x2E ∨ 0x39 < code := by decide
  intro isNumeral
  have bounds := isNumeral.bounds
  have := none _ contained.mem_blanks
  omega

theorem not_operator_of_blank {character : Char} (contained : blank.Contains character) :
    ¬ operator.Contains character := by
  have none : operators.all (!isBlank ·) = true := by decide
  intro isOperator
  have noBlank := List.all_eq_true.mp none character isOperator.mem_operators
  exact Bool.eq_false_iff.mp ((Bool.not_eq_true' _).mp noBlank) contained

/-- No character belongs to two classes. -/
theorem Contains.unique {kind other : CharacterClass} {character : Char}
    (contained : kind.Contains character) (alternative : other.Contains character) :
    other = kind :=
  match kind, other with
  | .letter, .letter | .numeral, .numeral | .operator, .operator | .blank, .blank => rfl
  | .letter, .numeral => absurd contained (not_letter_of_numeral alternative)
  | .numeral, .letter => absurd alternative (not_letter_of_numeral contained)
  | .letter, .operator => absurd contained (not_letter_of_operator alternative)
  | .operator, .letter => absurd alternative (not_letter_of_operator contained)
  | .letter, .blank => absurd contained (not_letter_of_blank alternative)
  | .blank, .letter => absurd alternative (not_letter_of_blank contained)
  | .numeral, .operator => absurd contained (not_numeral_of_operator alternative)
  | .operator, .numeral => absurd alternative (not_numeral_of_operator contained)
  | .numeral, .blank => absurd contained (not_numeral_of_blank alternative)
  | .blank, .numeral => absurd alternative (not_numeral_of_blank contained)
  | .operator, .blank => absurd contained (not_operator_of_blank alternative)
  | .blank, .operator => absurd alternative (not_operator_of_blank contained)

end CharacterClass
end PocketCalc
