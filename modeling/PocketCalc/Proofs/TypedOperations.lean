import PocketCalc.Proofs.LexemeEnds
import PocketCalc.Proofs.SessionSteps
import PocketCalc.Proofs.TidyText

/-! An operator and a whole number typed behind a text. The keys take them wherever the text has
a value, because it then ends in an operand. What is calculated is the text with both behind it,
and its answer depends only on the tree that they make with the expression before them. -/

namespace PocketCalc

def Binary64.ofNat (number : Nat) : Binary64 := .ofDecimal false ⟨number, 0⟩

namespace Token

variable {lexeme text : List Char} {token : Token} {tokens : List Token}

private theorem Spelled.last (spelled : Spelled lexeme token) (operand : token.endsOperand = true) :
    ∀ last ∈ lexeme.getLast?, isArithmetic last = false := by
  intro last ends
  cases spelled with
  | @atom first others letter all =>
    have continued : continuesAtom last = true := by
      rcases List.mem_cons.mp (List.mem_of_getLast? ends) with rfl | member
      · simp [continuesAtom, letter]
      · exact all last member
    exact not_arithmetic_of continued (by decide)
  | number spells =>
    rcases spells.last last ends with digit | rfl
    · exact not_arithmetic_of digit (by decide)
    · rfl
  | symbol member =>
    have closing : ∀ symbol ∈ symbols, symbol.2.endsOperand = true → symbol.1 = [')'] := by
      decide
    obtain rfl : lexeme = [')'] := closing _ member operand
    cases ends
    rfl

/-- A text ends like its last lexeme or in a blank. -/
theorem Splits.last (splits : Splits text tokens)
    (operand : ∀ token ∈ tokens.getLast?, token.endsOperand = true) :
    ∀ last ∈ text.getLast?, isArithmetic last = false := by
  induction splits with
  | done => exact nofun
  | @blank character rest tokens blank _ ih =>
    intro last ends
    by_cases final : rest = []
    · subst final
      obtain rfl : character = last := by simpa using ends
      exact not_arithmetic_of blank (by decide)
    · rw [← List.singleton_append, List.getLast?_append_of_ne_nil _ final] at ends
      exact ih operand last ends
  | @lexeme lexeme token rest tokens spelled _ _ splits ih =>
    intro last ends
    by_cases final : rest = []
    · subst final
      obtain rfl : [] = tokens := Except.ok.inj (scan_nil.symm.trans splits.scan)
      rw [List.append_nil] at ends
      exact spelled.last (operand token rfl) last ends
    · rw [List.getLast?_append_of_ne_nil _ final] at ends
      refine ih (fun later isLast => operand later ?_) last ends
      simp [List.getLast?_cons, Option.mem_def.mp isLast]

end Token

private theorem Operator.symbol_toList (operator : Operator) :
    operator.symbol.toList = [operator.key] := by
  cases operator <;> rfl

/-- After a text with a value the keys take every operator. -/
theorem isValidAppend_of_evaluate {text : String} {mode : AngleMode} {value : Binary64}
    (evaluated : evaluate text mode = .ok value) (operator : Operator) :
    isValidAppend text operator.symbol = true := by
  obtain ⟨tokens, expr, splits, derived, -⟩ := evaluate_eq_ok_iff.mp evaluated
  obtain ⟨before, token, rfl, operand⟩ := derived.exists_last
  have ends := splits.last (by simpa using operand)
  have other : operator.key ≠ '.' := by cases operator <;> decide
  rw [isValidAppend, operator.symbol_toList, accepts_character _ other, Bool.or_eq_true]
  right
  cases found : text.toList.getLast? with
  | none =>
    rw [List.getLast?_eq_none_iff.mp found] at splits
    have none := Except.ok.inj (Token.scan_nil.symm.trans splits.scan)
    exact absurd none.symm (List.concat_ne_nil token before)
  | some last =>
    rw [acceptsArithmetic_some_iff, ends last found]
    exact fun arithmetic => absurd arithmetic Bool.false_ne_true

section
variable {digits : List Char}

private theorem Numeral.spells_digits (present : digits ≠ []) (all : Digits digits) :
    Spells ⟨digits, none, none⟩ digits := by
  have spells : Spells ⟨digits, none, none⟩ (digits ++ ([] ++ [])) :=
    .parts all .absent (by simpa using present) .absent
  simpa using spells

private theorem Token.ofNumeral_digits (present : digits ≠ []) :
    let number := Binary64.ofNat (Nat.ofDigitChars 10 digits 0)
    ofNumeral ⟨digits, none, none⟩ =
      if number.isFinite then .ok (.number number) else .error (.invalidNumber (.ofList digits)) := by
  have value : Numeral.value ⟨digits, none, none⟩ = ⟨Nat.ofDigitChars 10 digits 0, 0⟩ := by
    simp [Numeral.value, Numeral.digits, Numeral.scale]
  have text : Numeral.text ⟨digits, none, none⟩ = digits := by simp [Numeral.text]
  unfold ofNumeral
  rw [if_neg (by simpa [Numeral.digits] using present), value, text]
  rfl

theorem Token.scan_operation (operator : Operator) (present : digits ≠ [])
    (all : Numeral.Digits digits) :
    let number := Binary64.ofNat (Nat.ofDigitChars 10 digits 0)
    scan (operator.key :: digits) =
      if number.isFinite then .ok [operator.token, .number number]
      else .error (.invalidNumber (.ofList digits)) := by
  intro number
  have single : digits.head? ≠ some '*' := by
    intro star
    obtain ⟨rest, rfl⟩ := List.head?_eq_some_iff.mp star
    exact absurd (all '*' List.mem_cons_self) (by decide)
  have stops : ∀ first ∈ ([] : List Char).head?, Numeral.continues first = false := nofun
  have scanned := scan_numeral (Numeral.spells_digits present all) stops
  rw [List.append_nil, scan_nil, ofNumeral_digits present] at scanned
  rw [scan_of_first (first_operator operator single), scanned]
  split <;> rfl

end

structure Operated (left : String) (operator : Operator) (tree : Binary64 → Expr) : Prop where
  read : ∃ tokens,
    (∀ digits, digits ≠ [] → Numeral.Digits digits →
      Token.scan (left.toList ++ operator.key :: digits) =
        (Token.scan (operator.key :: digits)).map (tokens ++ ·)) ∧
    ∀ number, Derives Environment.standardArity .sum (tokens ++ [operator.token, .number number])
      (tree number)
  shallow : ∀ number, (tree number).nesting ≤ Expr.nestingLimit

theorem Operated.evaluate {left : String} {operator : Operator} {tree : Binary64 → Expr}
    (operated : Operated left operator tree) {digits : List Char} (present : digits ≠ [])
    (all : Numeral.Digits digits) (mode : AngleMode) :
    let number := Binary64.ofNat (Nat.ofDigitChars 10 digits 0)
    PocketCalc.evaluate (left ++ operator.symbol ++ .ofList digits) mode =
      if number.isFinite then ((tree number).evaluate (.standard mode) ()).1
      else .error (.invalidNumber (.ofList digits)) := by
  intro number
  obtain ⟨tokens, before, derived⟩ := operated.read
  have scanned : Token.scan (left ++ operator.symbol ++ .ofList digits).toList =
      (Token.scan (operator.key :: digits)).map (tokens ++ ·) := by
    rw [String.toList_append, String.toList_append, operator.symbol_toList, String.toList_ofList,
      List.append_assoc, List.singleton_append, before digits present all]
  rw [Token.scan_operation operator present all] at scanned
  split
  next finite =>
    rw [if_pos finite] at scanned
    exact evaluate_of_scan scanned (derived number) (operated.shallow number)
  next infinite =>
    rw [if_neg infinite] at scanned
    exact evaluate_of_fault scanned

namespace Session

def operation (operator : Operator) (digits : List Char) : List Action :=
  .operator operator.symbol :: digits.map (fun digit => .number (String.singleton digit)) ++
    [.calculate]

variable {session : Session} {digits : List Char}

theorem step_number_of_accepted {key : Char} (editing : session.calculated = false)
    (accepted : accepts session.expression.toList [key] = true) :
    session.step (.number (String.singleton key)) =
      { session with expression := session.expression ++ String.singleton key } := by
  simp [step, afresh, editing, append, isValidAppend, accepted]

theorem run_digits (editing : session.calculated = false) (all : Numeral.Digits digits) :
    session.run (digits.map fun digit => .number (String.singleton digit)) =
      { session with expression := session.expression ++ .ofList digits } := by
  induction digits generalizing session with
  | nil => simp [run]
  | cons digit rest ih =>
    obtain ⟨isDigit, all⟩ := List.forall_mem_cons.mp all
    have typed := step_number_of_accepted editing
      (accepts_plain session.expression.toList (isPlain_of_digit isDigit))
    have joined : session.expression ++ String.singleton digit ++ .ofList rest =
        session.expression ++ .ofList (digit :: rest) := by
      apply String.toList_inj.mp
      simp
    have later := @ih { session with expression := session.expression ++ String.singleton digit }
      editing all
    dsimp only at later
    rw [joined, ← typed] at later
    exact later

theorem run_operation {operator : Operator}
    (succeeded : (session.calculated && session.error.isSome) = false)
    (accepted : isValidAppend session.expression operator.symbol = true)
    (all : Numeral.Digits digits) :
    (session.run (operation operator digits)).result =
      answer (session.expression ++ operator.symbol ++ .ofList digits) session.mode := by
  have typed : session.step (.operator operator.symbol) = { session with
      expression := session.expression ++ operator.symbol, calculated := false } := by
    simp [step, continued, succeeded, append, accepted]
  have nonempty : (session.expression ++ operator.symbol ++ .ofList digits).isEmpty = false := by
    rw [String.isEmpty_eq_false_iff]
    intro empty
    have none := congrArg String.toList empty
    simp [operator.symbol_toList] at none
  change ((session.step (.operator operator.symbol)).run (digits.map _ ++ [.calculate])).result = _
  rw [typed, run_append, run_digits rfl all]
  change (calculate _).result = _
  rw [calculate_eq nonempty]

end Session
end PocketCalc
