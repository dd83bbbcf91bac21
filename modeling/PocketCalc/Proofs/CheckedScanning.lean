import PocketCalc.Proofs.DisplayedAnswers
import PocketCalc.Proofs.WrittenForms

/-! The scanner with every step that can refuse its input. Operators are told from other
characters by one table and looked up in another, and the text of a numeral is handed to the
reader of numbers. The tables agree and the reader accepts every numeral, so no such step ever
fails and the tokens are those of the scanner without them. -/

namespace PocketCalc

namespace Numeral

theorem Spells.spells_text {numeral : Numeral} {lexeme : List Char}
    (spells : numeral.Spells lexeme) : numeral.Spells numeral.text := by
  obtain ⟨all, fractional, present, exponential⟩ := spells
  refine Numeral.spells_text (List.forall_mem_append.mpr ⟨all, ?_⟩) present ?_
  · cases fractional with
    | absent => exact List.forall_mem_nil _
    | point digits => exact digits
  · intro marked member
    cases exponential with
    | absent => contradiction
    | marked _ some digits =>
      cases member
      exact ⟨some, digits⟩

private theorem Spells.ne_point {numeral : Numeral} {lexeme : List Char}
    (spells : numeral.Spells lexeme) : lexeme ≠ ['.'] := by
  rintro rfl
  have digits := spells.scan_digits_ne_nil []
  exact digits rfl

/-- A numeral without digits is a point. -/
theorem scan_of_no_digits {first : Char} {rest : List Char}
    (begun : first.isDigit = true ∨ first = '.') (none : (scan (first :: rest)).1.digits = []) :
    first = '.' ∧ (scan (first :: rest)).1.text = ['.'] := by
  have digits := scan_digits (first :: rest)
  rw [none, eq_comm, List.append_eq_nil_iff] at digits
  obtain ⟨whole, fraction⟩ := digits
  obtain digit | rfl := begun
  · rw [List.takeWhile_cons_of_pos digit] at whole
    contradiction
  · have after : rest.takeWhile Char.isDigit = [] := by simpa [scanFraction] using fraction
    refine ⟨rfl, ?_⟩
    simp [scan, scanFraction, after, text]

end Numeral

namespace Token

inductive OperatorState where
  | complete
  | potentiallyIncomplete
  | notAnOperator

namespace Checked

def operatorState : Char → OperatorState
  | '+' | '-' | '/' | '^' | '(' | ')' => .complete
  | '*' => .potentiallyIncomplete
  | _ => .notAnOperator

def isOperator : Char → Bool
  | '+' | '-' | '/' | '^' | '(' | ')' | '*' => true
  | _ => false

def ofPair? : Char → Char → Option Token
  | '*', '*' => some .exponent
  | _, _ => none

def orInvalid (character : Char) : Option Token → Except Fault Token
  | some token => .ok token
  | none => .error (.invalidOperator character)

def ofNumeral (numeral : Numeral) : Except Fault Token :=
  if numeral.text = ['.'] then .error (.invalidNumber ".")
  else match Binary64.read numeral.text with
    | .error fault => .error (.invalidNumber fault.message)
    | .ok value =>
      if value.isFinite then .ok (.number value)
      else .error (.invalidNumber (.ofList numeral.text))

def first (character : Char) (rest : List Char) : Except Fault (Option Token × List Char) :=
  if isAlphabetic character then
    .ok (some (.atom (.ofList (character :: rest.takeWhile continuesAtom))),
      rest.dropWhile continuesAtom)
  else if character.isDigit || character == '.' then
    let (numeral, rest) := Numeral.scan (character :: rest)
    (ofNumeral numeral).map fun token => (some token, rest)
  else
    match operatorState character with
    | .complete =>
      (orInvalid character (ofOperator? character)).map fun token => (some token, rest)
    | .potentiallyIncomplete =>
      if rest.head? = some character then
        (orInvalid character (ofPair? character character)).map fun token => (some token, rest.tail)
      else (orInvalid character (ofOperator? character)).map fun token => (some token, rest)
    | .notAnOperator =>
      if isBlank character then .ok (none, rest)
      else .error (.unrecognizedToken (.ofList ((character :: rest).takeWhile fun other =>
        !(isBlank other || isOperator other || other.isDigit))))

theorem ofNumeral_eq {first : Char} {rest : List Char}
    (begun : first.isDigit = true ∨ first = '.') :
    ofNumeral (Numeral.scan (first :: rest)).1 = Token.ofNumeral (Numeral.scan (first :: rest)).1 := by
  by_cases none : (Numeral.scan (first :: rest)).1.digits = []
  · obtain ⟨-, point⟩ := Numeral.scan_of_no_digits begun none
    rw [ofNumeral, Token.ofNumeral, point, none, if_pos rfl, List.isEmpty_nil, if_pos rfl]
  · obtain ⟨lexeme, -, spells⟩ := Numeral.scan_spells none
    have read := read_of_spells spells.spells_text false
    rw [withMinus, if_neg Bool.false_ne_true] at read
    rw [ofNumeral, Token.ofNumeral, if_neg spells.spells_text.ne_point,
      if_neg (by simpa using none), read]

theorem isOperator_eq (character : Char) : isOperator character = (ofOperator? character).isSome := by
  unfold isOperator
  split <;> simp_all [ofOperator?]

private theorem operatorState_cases (character : Char) : character = '*' ∨
    operatorState character = .complete ∧
      (∃ token, ofOperator? character = some token ∧ token ≠ .multiply) ∨
    operatorState character = .notAnOperator ∧ ofOperator? character = none := by
  unfold operatorState
  split <;> simp_all [ofOperator?]

theorem first_eq (character : Char) (rest : List Char) :
    first character rest = Token.first character rest := by
  unfold first Token.first
  split
  next => rfl
  next =>
    split
    next begun =>
      dsimp only
      rw [ofNumeral_eq (by simpa using begun)]
    next =>
      rcases operatorState_cases character with
        rfl | ⟨state, token, found, other⟩ | ⟨state, unknown⟩
      · -- A star is an operator of its own only where no other star follows.
        cases rest with
        | nil => rfl
        | cons next after =>
          by_cases star : next = '*'
          · subst star
            rfl
          · simp [operatorState, ofOperator?, orInvalid, star, Except.map]
      · rw [state, found]
        cases token with
        | multiply => exact absurd rfl other
        | _ => rfl
      · rw [state, unknown]
        simp only [isOperator_eq]
        rfl

def scan : List Char → Except Fault (List Token)
  | [] => .ok []
  | character :: rest =>
    match _ : first character rest with
    | .error fault => .error fault
    | .ok (token, after) => (scan after).map (token.toList ++ ·)
termination_by text => text.length
decreasing_by
  exact Nat.lt_succ_of_le (first_rest_length ((first_eq character rest).symm.trans (by assumption)))

@[simp] theorem scan_eq (text : List Char) : scan text = Token.scan text := by
  fun_induction scan text with
  | case1 => rw [scan_nil]
  | case2 character rest fault failed =>
    rw [scan_cons, ← first_eq, failed]
    rfl
  | case3 character rest token after found ih =>
    rw [scan_cons, ← first_eq, found, ih]
    rfl

end Checked
end Token
end PocketCalc
