import PocketCalc.Proofs.Calculator
import PocketCalc.Proofs.DecimalText
import PocketCalc.Proofs.StableDigits
import PocketCalc.Session

/-! The canonical text of a finite number is an expression, and its value has the same
canonical text. Answers can therefore be fed back: answering an answer changes nothing. -/

namespace PocketCalc

theorem evaluate_withMinus {text : List Char} {decimal : Decimal} {magnitude : Magnitude}
    (written : Numeral.Writes text decimal.toRat) (nearest : Magnitude.Nearest decimal.units magnitude)
    (negative : Bool) (mode : AngleMode) :
    evaluate (.ofList (withMinus negative text)) mode = .ok (.finite negative magnitude) := by
  obtain ⟨numeral, spells, value⟩ := written
  rw [Decimal.units, ← value] at nearest
  have splits := (Token.Spelled.number spells (.finite nearest)).splits rfl
  rw [evaluate_eq_ok_iff, String.toList_ofList]
  cases negative with
  | false =>
    exact ⟨_, _, splits, .product (.signed (.power (.primary .number))), Nat.zero_le _, .number⟩
  | true =>
    exact ⟨_, _, splits.minus, .product (.signed (.negative (.power (.primary .number)))),
      Nat.le_add_left 1 63, .negative .number⟩

theorem canonical_written (negative : Bool) (magnitude : Magnitude) :
    ∃ text, Numeral.Writes text (magnitude.significant significantDigits).toRat ∧
      canonical (.finite negative magnitude) = .ofList
        (withMinus (negative && (magnitude.significant significantDigits).trim.coefficient != 0) text) := by
  refine ⟨_, ?_, rfl⟩
  rw [← Decimal.toRat_trim]
  split
  · exact Decimal.positional_writes _
  · exact Decimal.scientific_writes _

theorem evaluate_canonical (negative : Bool) (magnitude : Magnitude) (mode : AngleMode) :
    ∃ other, Magnitude.Nearest (magnitude.significant significantDigits).units other ∧
      evaluate (canonical (.finite negative magnitude)) mode = .ok
        (.finite (negative && (magnitude.significant significantDigits).trim.coefficient != 0) other) := by
  obtain ⟨text, written, canonical⟩ := canonical_written negative magnitude
  obtain ⟨other, nearest⟩ := magnitude.exists_nearest_significant
  exact ⟨other, nearest, by rw [canonical, evaluate_withMinus written nearest]⟩

private theorem canonical_congr {magnitude other : Magnitude}
    (same : (other.significant significantDigits).trim = (magnitude.significant significantDigits).trim) (negative : Bool) :
    canonical (.finite negative other) = canonical (.finite negative magnitude) := by
  simp only [canonical, same]

/-- Only a number that is not shown as zero has a sign. -/
theorem canonical_sign (negative : Bool) (magnitude : Magnitude) :
    canonical (.finite (negative && (magnitude.significant significantDigits).trim.coefficient != 0) magnitude) =
      canonical (.finite negative magnitude) := by
  simp only [canonical, Bool.and_assoc, Bool.and_self]

private theorem answer_canonical_of_finite (negative : Bool) (magnitude : Magnitude)
    (mode : AngleMode) : answer (canonical (.finite negative magnitude)) mode =
      canonical (.finite negative magnitude) := by
  obtain ⟨other, nearest, evaluated⟩ := evaluate_canonical negative magnitude mode
  rw [answer, evaluated]
  exact (canonical_congr (Magnitude.significant_stable nearest) _).trans (canonical_sign _ _)

private theorem evaluate_errorText (mode : AngleMode) :
    evaluate errorText mode = .error (.unknownAtom errorText) := by
  have spelled : Token.Spelled errorText.toList (.atom errorText) :=
    .atom (show isAlphabetic 'E' = true by decide) (List.all_eq_true.mp (by decide))
  have unknown : (Environment.standard mode).arity errorText = none := by
    change Environment.standardArity errorText = none
    decide
  unfold evaluate Environment.evaluateText
  rw [(spelled.splits rfl).scan]
  dsimp only
  rw [Expr.ofTokens_of_unknown unknown]
  rfl

theorem answer_errorText (mode : AngleMode) : answer errorText mode = errorText := by
  rw [answer, evaluate_errorText]

private theorem canonical_first (negative : Bool) (magnitude : Magnitude) : ∃ first others,
    (canonical (.finite negative magnitude)).toList = first :: others ∧ first ≠ 'E' := by
  obtain ⟨text, ⟨numeral, spells, _⟩, canonical⟩ := canonical_written negative magnitude
  obtain ⟨first, others, rfl, begun⟩ := spells.exists_first
  rw [canonical, String.toList_ofList]
  unfold withMinus
  split
  · exact ⟨_, _, rfl, by decide⟩
  · refine ⟨first, others, rfl, ?_⟩
    rintro rfl
    contradiction

theorem canonical_ne_errorText (negative : Bool) (magnitude : Magnitude) :
    canonical (.finite negative magnitude) ≠ errorText := by
  obtain ⟨first, others, text, other⟩ := canonical_first negative magnitude
  intro same
  rw [same] at text
  cases text
  exact other rfl

theorem answer_canonical (value : Binary64) (mode : AngleMode) :
    answer (canonical value) mode = canonical value := by
  cases value with
  | finite negative magnitude => exact answer_canonical_of_finite negative magnitude mode
  | nan | infinite => exact answer_errorText mode

theorem answer_eq_canonical_or (text : String) (mode : AngleMode) :
    (∃ value, answer text mode = canonical value) ∨ answer text mode = errorText := by
  unfold answer
  split
  · exact .inl ⟨_, rfl⟩
  · exact .inr rfl

theorem answer_answer (text : String) (mode other : AngleMode) :
    answer (answer text mode) other = answer text mode := by
  obtain ⟨value, same⟩ | same := answer_eq_canonical_or text mode
  · rw [same, answer_canonical]
  · rw [same, answer_errorText]

private theorem canonical_isEmpty (value : Binary64) : (canonical value).isEmpty = false := by
  cases value with
  | finite negative magnitude =>
    obtain ⟨first, others, text, _⟩ := canonical_first negative magnitude
    rw [← String.ofList_toList (s := canonical (.finite negative magnitude)), text]
    simp
  | nan | infinite => rfl

theorem answer_isEmpty (text : String) (mode : AngleMode) : (answer text mode).isEmpty = false := by
  obtain ⟨value, same⟩ | same := answer_eq_canonical_or text mode
  · rw [same, canonical_isEmpty]
  · rw [same]
    rfl

theorem Session.calculate_eq {session : Session} (typed : session.expression.isEmpty = false) :
    session.calculate = { session with
      expression := answer session.expression session.mode
      result := answer session.expression session.mode
      error := if answer session.expression session.mode == errorText then some errorText else none
      calculated := true } := by
  simp only [calculate, typed, Bool.false_eq_true, if_false]

theorem Session.calculate_calculate (session : Session) :
    session.calculate.calculate = session.calculate := by
  by_cases empty : session.expression.isEmpty = true
  · simp only [calculate, empty, if_true]
  · have calculated := calculate_eq (Bool.eq_false_iff.mpr empty)
    have typed : session.calculate.expression.isEmpty = false := by
      rw [calculated, answer_isEmpty]
    rw [calculate_eq typed, calculated, answer_answer]

/-- Answers can be fed back in any mode: an answer, the error text included, is its own answer,
and so is the canonical text of every number. Calculating twice is calculating once. -/
theorem answers_are_stable :
    (∀ text mode other, answer (answer text mode) other = answer text mode) ∧
    (∀ value mode, answer (canonical value) mode = canonical value) ∧
    (∀ session : Session, (session.step .calculate).step .calculate = session.step .calculate) :=
  ⟨answer_answer, answer_canonical, Session.calculate_calculate⟩

end PocketCalc
