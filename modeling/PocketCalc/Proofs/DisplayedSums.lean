import PocketCalc.Proofs.TypedOperations

/-! Adding to the expression that is displayed, whatever it is made of, adds to its value. A sign
is a lexeme of its own and sums are the loosest category, so the expression keeps its tokens and
becomes the left operand as a whole. Only where it ends in a numeral and the letter of an
exponent are sign and digits taken for that exponent. -/

namespace PocketCalc

def Sign.operator : Sign → Operator
  | .plus => .plus
  | .minus => .minus

private theorem Sign.key_operator (sign : Sign) : sign.operator.key = sign.char := by
  cases sign <;> rfl

private theorem Operated.of_sum {text : String} {tokens : List Token} {expr : Expr}
    (splits : Token.Splits text.toList tokens) (closed : ¬ Token.OpensExponent text.toList)
    (derived : Derives Environment.standardArity .sum tokens expr)
    (shallow : expr.nesting ≤ Expr.nestingLimit) (sign : Sign) :
    Operated text sign.operator fun number => .binary sign.operator expr (.number number) := by
  refine ⟨⟨tokens, fun digits _ _ => ?_, fun number => ?_⟩, fun number => ?_⟩
  · rw [sign.key_operator]
    exact splits.scan_sign closed sign digits
  · have right : Derives Environment.standardArity .product [.number number] (.number number) :=
      .signed (.power (.primary .number))
    cases sign with
    | plus => exact derived.plus right
    | minus => exact derived.minus right
  · have level : (Expr.binary sign.operator expr (.number number)).nesting = max expr.nesting 0 := by
      cases sign <;> rfl
    rw [level, Nat.max_zero]
    exact shallow

theorem Evaluates.evaluate_operation {expr : Expr} {mode : AngleMode} {value : Binary64}
    (evaluated : Evaluates (.standard mode) expr () value ()) (operator : Operator)
    (number : Binary64) :
    ((Expr.binary operator expr (.number number)).evaluate (.standard mode) ()).1 =
      operator.apply value number := by
  rw [Expr.evaluate, Evaluation.bind_of_ok evaluated.evaluate,
    Evaluation.bind_of_ok (Evaluates.number).evaluate]
  cases operator.apply value number <;> rfl

/-- A sum never divides, so it is a result exactly if it is finite. -/
theorem Sign.apply_eq_ok {sign : Sign} {left right value : Binary64} :
    sign.operator.apply left right = .ok value ↔
      (sign.operator.compute left right).isFinite = true ∧
        sign.operator.compute left right = value := by
  have divides : sign.operator.dividesByZero left right = false := by cases sign <;> rfl
  rw [Operator.apply_eq_ok, and_iff_right divides]

namespace Session

/-- A sign, a whole number and a calculation add to the value of the expression that is displayed
or subtract from it, unless it ends in a numeral without an exponent and the letter of one. The
result is the canonical text of the sum, and the error text if the number or the sum is not
finite. -/
theorem sums_go_on_from_the_value (session : Session) (sign : Sign) {digits : List Char}
    {value : Binary64} (editing : session.calculated = false)
    (evaluated : evaluate session.expression session.mode = .ok value)
    (closed : ¬ Token.OpensExponent session.expression.toList) (present : digits ≠ [])
    (all : ∀ digit ∈ digits, digit.isDigit = true) :
    let number := Binary64.ofNat (Nat.ofDigitChars 10 digits 0)
    let sum := sign.operator.compute value number
    (session.run (operation sign.operator digits)).result =
      if number.isFinite && sum.isFinite then canonical sum else errorText := by
  intro number sum
  have accepted := isValidAppend_of_evaluate evaluated sign.operator
  obtain ⟨tokens, expr, splits, derived, shallow, evaluates⟩ := evaluate_eq_ok_iff.mp evaluated
  have operated := Operated.of_sum splits closed derived shallow sign
  rw [run_operation (by rw [editing]; rfl) accepted all, answer, operated.evaluate present all,
    evaluates.evaluate_operation]
  by_cases finite : number.isFinite = true
  · rw [if_pos finite, finite, Bool.true_and]
    cases applied : sign.operator.apply value number with
    | ok result =>
      obtain ⟨within, rfl⟩ := Sign.apply_eq_ok.mp applied
      exact (if_pos within).symm
    | error fault =>
      have beyond : ¬ sum.isFinite = true := by
        intro within
        rw [Sign.apply_eq_ok.mpr ⟨within, rfl⟩] at applied
        cases applied
      exact (if_neg beyond).symm
  · rw [if_neg finite, Bool.eq_false_iff.mpr finite]
    rfl

/-- A literal with an exponent that was typed key by key. -/
theorem sums_go_on_from_the_value_after_an_exponent :
    let keys : List Action := [.number "1", .function "e", .operator "+", .number "5"]
    let session := (initial .degrees).run keys
    session.calculated = false ∧ session.expression = "1e+5" ∧
    ¬ Token.OpensExponent session.expression.toList ∧
    (session.run (operation .plus ['3'])).result = "100003" := by
  intro keys session
  have editing : session.calculated = false := by decide +kernel
  have typed : session.expression = "1e+5" := by decide +kernel
  have evaluated : evaluate session.expression session.mode = .ok (.ofNat 100000) := by
    decide +kernel
  have closed : ¬ Token.OpensExponent session.expression.toList := by
    rw [typed]
    intro opens
    obtain ⟨mark, ends, isMark⟩ := opens.exists_last
    obtain rfl : '5' = mark := Option.some.inj ends
    exact absurd isMark (by decide)
  have outcome := sums_go_on_from_the_value session .plus editing evaluated closed
    (by decide : ['3'] ≠ []) (List.forall_mem_singleton.mpr rfl)
  refine ⟨editing, typed, closed, outcome.trans ?_⟩
  decide +kernel

/-- The key of the constant behind a numeral: a plus and a digit make them a literal with an
exponent, which is not the sum of the product and the digit. -/
theorem signs_turn_a_constant_into_an_exponent :
    let keys : List Action := [.number "2", .function "e"]
    let session := (initial .degrees).run keys
    let value := Binary64.ofBits 0x4015bf0a8b145769
    session.calculated = false ∧ evaluate session.expression session.mode = .ok value ∧
    (session.run (operation .plus ['3'])).result = "2000" ∧
    canonical (value.add (.ofNat 3)) = "8.4365636569181" := by
  decide +kernel

end Session
end PocketCalc
