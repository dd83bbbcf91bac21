import PocketCalc.Proofs.Finiteness
import PocketCalc.Proofs.SurroundingBlanks
import PocketCalc.Proofs.ThousandsSeparators

/-! Every answer can be displayed. The reader behind the display is not that of expressions,
but it finds the same number in the canonical text of every finite one. What is displayed then
consists of the characters of numbers, so it is never the error text. -/

namespace PocketCalc

def OfNumber (character : Char) : Prop :=
  character.isDigit = true ∨ character ∈ ['.', 'e', 'E', '+', '-', ',']

theorem Numeral.Writes.ofNumber {text : List Char} {value : ℚ}
    (written : Numeral.Writes text value) : ∀ character ∈ text, OfNumber character := by
  obtain ⟨numeral, spells, -⟩ := written
  intro character member
  rcases spells.characters character member with digit | mark
  · exact .inl digit
  · right
    simp only [List.mem_cons] at mark ⊢
    tauto

theorem ofNumber_minus : OfNumber '-' := .inr (by decide)

theorem Magnitude.ofNumber_display (magnitude : Magnitude) (negative : Bool)
    (precision : Option Nat) :
    ∀ character ∈ magnitude.display negative precision, OfNumber character := by
  intro character member
  unfold display at member
  split at member
  · have all := (Decimal.scientific_writes magnitude.shortest).ofNumber
    exact forall_mem_withMinus ofNumber_minus all _ character member
  · rcases mem_groupThousands member with written | rfl
    · have all := (Decimal.positional_writes (magnitude.shown precision)).ofNumber
      exact forall_mem_withMinus ofNumber_minus all _ character written
    · exact .inr (by decide)

private theorem ofList_ne_errorText {text : List Char}
    (all : ∀ character ∈ text, OfNumber character) : String.ofList text ≠ errorText := by
  intro same
  have letter : 'r' ∈ text := by
    rw [← String.toList_ofList (l := text), same]
    decide
  rcases all 'r' letter with digit | mark
  · contradiction
  · contradiction

private theorem newline_not_mem {text : List Char} (all : ∀ character ∈ text, OfNumber character) :
    '\n' ∉ text := by
  intro newline
  rcases all '\n' newline with digit | mark
  · contradiction
  · contradiction

section
variable {first : Char} {others : List Char}

private theorem sign_scan?_of_numeral (begun : CharacterClass.numeral.Contains first) :
    Sign.scan? (first :: others) = (none, first :: others) := by
  unfold Sign.scan?
  split
  next same =>
    cases same
    exact absurd begun (by simp [CharacterClass.Contains])
  next same =>
    cases same
    exact absurd begun (by simp [CharacterClass.Contains])
  next => rfl

private theorem toLower_of_numeral (begun : CharacterClass.numeral.Contains first) :
    first.toLower = first := by
  have bounds := begun.bounds
  unfold Char.toLower
  rw [dif_neg]
  rintro ⟨above, _⟩
  have above : 0x41 ≤ first.toNat := above
  omega

/-- The named numbers begin with letters. -/
theorem ofName?_of_numeral (begun : CharacterClass.numeral.Contains first) (negative : Bool) :
    Binary64.ofName? negative (first :: others) = none := by
  have bounds := begun.bounds
  have notI : first ≠ 'i' := by
    rintro rfl
    contradiction
  have notN : first ≠ 'n' := by
    rintro rfl
    contradiction
  simp [Binary64.ofName?, toLower_of_numeral begun, notI, notN]

private theorem read_withMinus_of_numeral (begun : CharacterClass.numeral.Contains first)
    {negative : Bool} {value : Binary64}
    (found : Binary64.ofNumeral? negative (first :: others) = some value) :
    Binary64.read (withMinus negative (first :: others)) = .ok value := by
  have unnamed : Binary64.ofName? negative (first :: others) = none :=
    ofName?_of_numeral begun negative
  cases negative with
  | false => simp [Binary64.read, withMinus, sign_scan?_of_numeral begun, unnamed, found]
  | true => simp [Binary64.read, withMinus, Sign.scan?, unnamed, found]

end

private theorem ofNumeral?_of_spells {numeral : Numeral} {text : List Char}
    (spells : numeral.Spells text) (negative : Bool) :
    Binary64.ofNumeral? negative text = some (.ofDecimal negative numeral.value) := by
  have digits : numeral.digits ≠ [] := by
    have present := spells.scan_digits_ne_nil []
    rwa [List.append_nil, spells.scan_whole] at present
  rw [Binary64.ofNumeral?, spells.scan_whole]
  dsimp only
  rw [if_neg (by simpa using digits)]

/-- The reader accepts every numeral, and rounds its value. -/
theorem read_of_spells {numeral : Numeral} {text : List Char} (spells : numeral.Spells text)
    (negative : Bool) :
    Binary64.read (withMinus negative text) = .ok (.ofDecimal negative numeral.value) := by
  obtain ⟨first, others, rfl, begun⟩ := spells.exists_first
  have found := ofNumeral?_of_spells spells negative
  exact read_withMinus_of_numeral begun found

theorem read_withMinus {text : List Char} {decimal : Decimal} {magnitude : Magnitude}
    (written : Numeral.Writes text decimal.toRat)
    (nearest : Magnitude.Nearest decimal.units magnitude) (negative : Bool) :
    Binary64.read (withMinus negative text) = .ok (.finite negative magnitude) := by
  obtain ⟨numeral, spells, value⟩ := written
  have nearest : Magnitude.Nearest numeral.value.units magnitude := by
    rwa [Decimal.units, value, ← Decimal.units]
  rw [read_of_spells spells, Binary64.ofDecimal, Decimal.nearest?_eq_some_iff.mpr nearest,
    Binary64.ofMagnitude?]

private theorem withoutSeparators_eq_self {text : List Char}
    (none : ∀ character ∈ text, isBlank character = false ∧ character ≠ ',') :
    withoutSeparators text = text := by
  rw [withoutSeparators, trimBlanks_eq_self fun character member => (none character member).1,
    List.filter_eq_self]
  intro character member
  simpa using (none character member).2

private theorem withoutSeparators_withMinus {numeral : Numeral} {text : List Char}
    (spells : numeral.Spells text) (negative : Bool) :
    withoutSeparators (withMinus negative text) = withMinus negative text := by
  have all : ∀ character ∈ text, isBlank character = false ∧ character ≠ ',' :=
    fun character member =>
      ⟨spells.not_blank character member, spells.ne_comma character member⟩
  apply withoutSeparators_eq_self
  exact forall_mem_withMinus ⟨by decide, by decide⟩ all negative

/-- The reader of the display and that of expressions find the same number in a canonical
text. -/
theorem read_canonical (negative : Bool) (magnitude : Magnitude) (mode : AngleMode) :
    ∃ sign other,
      Binary64.read (withoutSeparators (canonical (.finite negative magnitude)).toList) =
        .ok (.finite sign other) ∧
      evaluate (canonical (.finite negative magnitude)) mode = .ok (.finite sign other) := by
  obtain ⟨text, written, canonical⟩ := canonical_written negative magnitude
  obtain ⟨other, nearest⟩ := magnitude.exists_nearest_significant
  have ⟨numeral, spells, _⟩ := written
  refine ⟨_, other, ?_, by rw [canonical, evaluate_withMinus written nearest]⟩
  rw [canonical, String.toList_ofList, withoutSeparators_withMinus spells,
    read_withMinus written nearest]

private theorem exists_display_canonical (negative : Bool) (magnitude : Magnitude)
    (precision : Option Nat) : ∃ text, (∀ character ∈ text, OfNumber character) ∧
      formatNumber (canonical (.finite negative magnitude)) precision = .ofList text := by
  obtain ⟨sign, other, read, -⟩ := read_canonical negative magnitude .degrees
  refine ⟨_, other.ofNumber_display sign precision, ?_⟩
  rw [formatNumber, read]

theorem formatNumber_errorText (precision : Option Nat) :
    formatNumber errorText precision = errorText := by
  have unread : Binary64.read (withoutSeparators errorText.toList) = .error .malformed := by
    decide +kernel
  rw [formatNumber, unread]

theorem formatNumber_canonical_eq_errorText_iff (value : Binary64) (precision : Option Nat) :
    formatNumber (canonical value) precision = errorText ↔ value.isFinite = false := by
  cases value with
  | finite negative magnitude =>
    obtain ⟨text, all, shown⟩ := exists_display_canonical negative magnitude precision
    rw [shown]
    exact iff_of_false (ofList_ne_errorText all) (by simp [Binary64.isFinite])
  | nan | infinite => exact iff_of_true (formatNumber_errorText precision) rfl

theorem answer_eq_errorText_or (text : String) (mode : AngleMode) :
    answer text mode = errorText ∨
      ∃ negative magnitude, answer text mode = canonical (.finite negative magnitude) := by
  obtain ⟨value, same⟩ | failed := answer_eq_canonical_or text mode
  · cases value with
    | finite negative magnitude => exact .inr ⟨negative, magnitude, same⟩
    | nan | infinite => exact .inl same
  · exact .inl failed

theorem formatNumber_answer_eq_errorText_iff (text : String) (mode : AngleMode)
    (precision : Option Nat) :
    formatNumber (answer text mode) precision = errorText ↔ answer text mode = errorText := by
  rcases answer_eq_errorText_or text mode with failed | ⟨negative, magnitude, same⟩
  · rw [failed]
    exact iff_of_true (formatNumber_errorText precision) rfl
  · rw [same, formatNumber_canonical_eq_errorText_iff]
    exact iff_of_false (by simp [Binary64.isFinite]) (canonical_ne_errorText negative magnitude)

namespace CommandLine

theorem exists_rendered (settings : Settings) (negative : Bool) (magnitude : Magnitude) :
    ∃ text, (∀ character ∈ text, OfNumber character) ∧
      settings.render (canonical (.finite negative magnitude)) = .ofList text := by
  unfold Settings.render
  split
  · obtain ⟨text, written, canonical⟩ := canonical_written negative magnitude
    exact ⟨_, forall_mem_withMinus ofNumber_minus written.ofNumber _, canonical⟩
  · exact exists_display_canonical negative magnitude _

theorem runExpression_line (settings : Settings) (text : String) : ∃ line,
    (runExpression settings text).output = line ++ "\n" ∧ '\n' ∉ line.toList ∧
      ((runExpression settings text).status = 1 ↔ line = errorText) := by
  rcases answer_eq_errorText_or text settings.mode with failed | ⟨negative, magnitude, same⟩
  · refine ⟨errorText, ?_, by decide, ?_⟩ <;> simp [runExpression, failed]
  · obtain ⟨line, all, rendered⟩ := exists_rendered settings negative magnitude
    have done : runExpression settings text = ⟨.ofList line ++ "\n", 0⟩ := by
      simp [runExpression, same, canonical_ne_errorText, rendered]
    rw [done]
    refine ⟨.ofList line, rfl, ?_, ?_⟩
    · rw [String.toList_ofList]
      exact newline_not_mem all
    · exact iff_of_false (by simp) (ofList_ne_errorText all)

/-- A number is displayed as the error text only if it is not finite, and an answer only if it
is the error text, whatever precision is asked for. The program therefore prints a single line,
and it ends with status 1 exactly if that line is the error text. -/
theorem answers_are_displayable :
    (∀ value precision,
      formatNumber (canonical value) precision = errorText ↔ value.isFinite = false) ∧
    (∀ text mode precision,
      formatNumber (answer text mode) precision = errorText ↔ answer text mode = errorText) ∧
    (∀ settings text input, ∃ line,
      (run (.expression settings text) input).output = line ++ "\n" ∧ '\n' ∉ line.toList ∧
        ((run (.expression settings text) input).status = 1 ↔ line = errorText)) :=
  ⟨formatNumber_canonical_eq_errorText_iff, formatNumber_answer_eq_errorText_iff,
    fun settings text _ => runExpression_line settings text⟩

end CommandLine
end PocketCalc
