import PocketCalc.CommandLine.Run
import PocketCalc.Proofs.CanonicalText
import PocketCalc.Proofs.Interruptions

/-! No calculation meets an infinity or a non-number, not even one that fails later. What a
calculation meets is described by its events: the values of its subexpressions, and the
operands of its operations. The error text is therefore the answer exactly to an expression
that has no value. -/

namespace PocketCalc

inductive Event where
  | result (value : Binary64)
  | operation (operator : Operator) (left right : Binary64)

def Event.isFinite : Event → Bool
  | .result value => value.isFinite
  | .operation _ left right => left.isFinite && right.isFinite

variable {σ : Type}

section
variable (environment : Environment σ)

mutual

/-- An event of evaluating an expression, be it with or without success in the end. -/
inductive Happens : Expr → σ → Event → Prop
  | result {expr before value after} : Evaluates environment expr before value after →
      Happens expr before (.result value)
  | group {inner before event} : Happens inner before event → Happens (.group inner) before event
  | signed {sign operand before event} : Happens operand before event →
      Happens (.signed sign operand) before event
  | left {operator left right before event} : Happens left before event →
      Happens (.binary operator left right) before event
  | right {operator left right before first middle event} :
      Evaluates environment left before first middle → Happens right middle event →
      Happens (.binary operator left right) before event
  | operation {operator left right before first middle second after} :
      Evaluates environment left before first middle →
      Evaluates environment right middle second after →
      Happens (.binary operator left right) before (.operation operator first second)
  | former {left right before event} : Happens left before event →
      Happens (.adjoining left right) before event
  | latter {left right before first middle event} :
      Evaluates environment left before first middle → Happens right middle event →
      Happens (.adjoining left right) before event
  | product {left right before first middle second after} :
      Evaluates environment left before first middle →
      Evaluates environment right middle second after →
      Happens (.adjoining left right) before (.operation .times first second)
  | argument {name arguments before event} : HappensAmong arguments before event →
      Happens (.call name arguments) before event

inductive HappensAmong : List Expr → σ → Event → Prop
  | first {expr others before event} : Happens expr before event →
      HappensAmong (expr :: others) before event
  | later {expr others before value middle event} :
      Evaluates environment expr before value middle → HappensAmong others middle event →
      HappensAmong (expr :: others) before event

end

def Environment.Happens : Except Interruption Expr → σ → Event → Prop
  | .ok expr => PocketCalc.Happens environment expr
  | .error interruption => HappensAmong environment interruption.complete

/-- Atoms that have a value have a finite one. -/
def Environment.Finite : Prop :=
  ∀ ⦃name arguments before value after⦄,
    environment.resolve name arguments before = (.ok value, after) → value.isFinite = true

end

theorem Binary64.isFinite_neg (value : Binary64) : value.neg.isFinite = value.isFinite := by
  cases value <;> rfl

variable {environment : Environment σ}

theorem Evaluates.isFinite (finite : environment.Finite) {expr : Expr} {before after : σ}
    {value : Binary64} : Evaluates environment expr before value after →
      (∀ token ∈ expr.tokens, token.isFinite = true) → value.isFinite = true
  | .number, numbers => numbers _ List.mem_cons_self
  | .group inside, numbers => by
    simp only [Expr.tokens, List.cons_append, List.forall_mem_cons, List.forall_mem_append] at numbers
    exact inside.isFinite finite numbers.2.1
  | .positive inside, numbers => by
    simp only [Expr.tokens, List.forall_mem_cons] at numbers
    exact inside.isFinite finite numbers.2
  | .negative inside, numbers => by
    simp only [Expr.tokens, List.forall_mem_cons] at numbers
    rw [Binary64.isFinite_neg]
    exact inside.isFinite finite numbers.2
  -- The results of operations are checked, whatever their operands are.
  | .binary _ _ _ result, _ => result
  | .adjoining _ _ result, _ => result
  | .call _ resolved, _ => finite resolved

mutual

theorem Happens.isFinite (finite : environment.Finite) {expr : Expr} {before : σ} {event : Event} :
    Happens environment expr before event →
      (∀ token ∈ expr.tokens, token.isFinite = true) → event.isFinite = true
  | .result evaluates, numbers => evaluates.isFinite finite numbers
  | .group inside, numbers => by
    simp only [Expr.tokens, List.cons_append, List.forall_mem_cons, List.forall_mem_append] at numbers
    exact inside.isFinite finite numbers.2.1
  | .signed inside, numbers => by
    simp only [Expr.tokens, List.forall_mem_cons] at numbers
    exact inside.isFinite finite numbers.2
  | .left inside, numbers => by
    simp only [Expr.tokens, List.forall_mem_append] at numbers
    exact inside.isFinite finite numbers.1
  | .right _ inside, numbers => by
    simp only [Expr.tokens, List.forall_mem_cons, List.forall_mem_append] at numbers
    exact inside.isFinite finite numbers.2.2
  | .operation left right, numbers => by
    simp only [Expr.tokens, List.forall_mem_cons, List.forall_mem_append] at numbers
    exact Bool.and_eq_true_iff.mpr
      ⟨left.isFinite finite numbers.1, right.isFinite finite numbers.2.2⟩
  | .former inside, numbers => by
    simp only [Expr.tokens, List.forall_mem_append] at numbers
    exact inside.isFinite finite numbers.1
  | .latter _ inside, numbers => by
    simp only [Expr.tokens, List.forall_mem_append] at numbers
    exact inside.isFinite finite numbers.2
  | .product left right, numbers => by
    simp only [Expr.tokens, List.forall_mem_append] at numbers
    exact Bool.and_eq_true_iff.mpr ⟨left.isFinite finite numbers.1, right.isFinite finite numbers.2⟩
  | .argument inside, numbers => by
    simp only [Expr.tokens, List.forall_mem_cons] at numbers
    exact inside.isFinite finite numbers.2

theorem HappensAmong.isFinite (finite : environment.Finite) {exprs : List Expr} {before : σ}
    {event : Event} : HappensAmong environment exprs before event →
      (∀ token ∈ Expr.allTokens exprs, token.isFinite = true) → event.isFinite = true
  | .first inside, numbers => by
    simp only [Expr.allTokens, List.forall_mem_append] at numbers
    exact inside.isFinite finite numbers.1
  | .later _ inside, numbers => by
    simp only [Expr.allTokens, List.forall_mem_append] at numbers
    exact inside.isFinite finite numbers.2

end

theorem Environment.Happens.isFinite (finite : environment.Finite) {tokens : List Token}
    (numbers : ∀ token ∈ tokens, token.isFinite = true) {before : σ} {event : Event}
    (happens : environment.Happens (Expr.ofTokens environment.arity tokens) before event) :
    event.isFinite = true := by
  cases reading : Expr.ofTokens environment.arity tokens with
  | ok expr =>
    rw [reading] at happens
    rw [← Expr.tokens_eq_of_ofTokens reading] at numbers
    exact PocketCalc.Happens.isFinite finite happens numbers
  | error interruption =>
    rw [reading] at happens
    refine HappensAmong.isFinite finite happens fun token member => ?_
    exact numbers token ((Expr.within_of_ofTokens reading).mem member)

theorem Environment.isFinite_of_parse (finite : environment.Finite) {tokens : List Token}
    (numbers : ∀ token ∈ tokens, token.isFinite = true) {before after : σ} {value : Binary64}
    (success : environment.parse tokens before = (.ok value, after)) : value.isFinite = true := by
  obtain ⟨expr, derived, _, evaluates⟩ := parse_eq_ok_iff.mp success
  rw [← derived.tokens_eq] at numbers
  exact evaluates.isFinite finite numbers

theorem Environment.standard_finite (mode : AngleMode) : (standard mode).Finite := by
  intro name arguments before value after success
  obtain ⟨resolved, _⟩ := Evaluation.ofExcept_eq_ok.mp success
  unfold standardResolve at resolved
  split at resolved
  · cases resolved
  · split at resolved <;> cases resolved
    assumption

theorem isFinite_of_evaluate {text : String} {mode : AngleMode} {value : Binary64}
    (success : evaluate text mode = .ok value) : value.isFinite = true := by
  obtain ⟨tokens, expr, splits, derived, _, evaluates⟩ := evaluate_eq_ok_iff.mp success
  refine evaluates.isFinite (Environment.standard_finite mode) ?_
  rw [derived.tokens_eq]
  exact splits.isFinite

theorem answer_eq_errorText_iff {text : String} {mode : AngleMode} :
    answer text mode = errorText ↔ ∃ fault, evaluate text mode = .error fault := by
  unfold answer
  cases evaluated : evaluate text mode with
  | error fault => exact iff_of_true rfl ⟨fault, rfl⟩
  | ok value =>
    have finite := isFinite_of_evaluate evaluated
    cases value with
    | finite negative magnitude =>
      refine iff_of_false (canonical_ne_errorText negative magnitude) ?_
      rintro ⟨_, impossible⟩
      cases impossible
    | nan | infinite => contradiction

theorem Session.calculate_error_iff {session : Session}
    (typed : session.expression.isEmpty = false) :
    session.calculate.error.isSome = true ↔
      ∃ fault, evaluate session.expression session.mode = .error fault := by
  rw [calculate_eq typed, ← answer_eq_errorText_iff]
  dsimp only
  split
  next failed => exact iff_of_true rfl (beq_iff_eq.mp failed)
  next done => exact iff_of_false Bool.false_ne_true (mt beq_iff_eq.mpr done)

theorem CommandLine.runExpression_status_iff (settings : Settings) (text : String) :
    (runExpression settings text).status = 1 ↔
      ∃ fault, evaluate text settings.mode = .error fault := by
  rw [← answer_eq_errorText_iff]
  unfold runExpression
  dsimp only
  split
  next failed => exact iff_of_true rfl (beq_iff_eq.mp failed)
  next done => exact iff_of_false Nat.zero_ne_one (mt beq_iff_eq.mpr done)

/-- If atoms only have finite values, a calculation on finite numbers meets only finite values
and has one, whether or not it succeeds. Scanning gives only finite numbers and the atoms of the
calculator only finite values, so the error text is the answer to the expressions without a
value and to no others, as it is for a session and on the command line. -/
theorem calculations_stay_finite :
    (∀ (environment : Environment σ), environment.Finite → ∀ tokens : List Token,
      (∀ token ∈ tokens, token.isFinite = true) → ∀ before,
        (∀ event, environment.Happens (Expr.ofTokens environment.arity tokens) before event →
          event.isFinite = true) ∧
        (∀ value after, environment.parse tokens before = (.ok value, after) →
          value.isFinite = true)) ∧
    (∀ text tokens, Token.scan text = .ok tokens → ∀ token ∈ tokens, token.isFinite = true) ∧
    (∀ mode, (Environment.standard mode).Finite) ∧
    (∀ text mode value, evaluate text mode = .ok value → value.isFinite = true) ∧
    (∀ text mode, answer text mode = errorText ↔ ∃ fault, evaluate text mode = .error fault) ∧
    (∀ session : Session, session.expression.isEmpty = false →
      ((session.step .calculate).error.isSome = true ↔
        ∃ fault, evaluate session.expression session.mode = .error fault)) ∧
    (∀ settings text, (CommandLine.runExpression settings text).status = 1 ↔
      ∃ fault, evaluate text settings.mode = .error fault) := by
  refine ⟨fun environment finite tokens numbers before => ⟨fun event => ?_, fun value after => ?_⟩,
    fun text tokens scanned => (Token.Splits.of_scan scanned).isFinite,
    Environment.standard_finite, fun text mode value => isFinite_of_evaluate,
    fun text mode => answer_eq_errorText_iff, fun session => Session.calculate_error_iff,
    CommandLine.runExpression_status_iff⟩
  · exact Environment.Happens.isFinite finite numbers
  · exact Environment.isFinite_of_parse finite numbers

/-- Nothing looks at a number that is given, so an infinity among the tokens can be the value. No
scanned list has one. -/
theorem infinities_are_passed_on :
    let environment := Environment.standard .degrees
    let tokens : List Token := [.number (.infinite false)]
    environment.Finite ∧ environment.parse tokens () = (.ok (.infinite false), ()) ∧
      (Binary64.infinite false).isFinite = false := by
  intro environment tokens
  have derived : Derives environment.arity .sum tokens (.number (.infinite false)) :=
    .product (.signed (.power (.primary .number)))
  have success : environment.parse tokens () = (.ok (.infinite false), ()) :=
    Environment.parse_eq_ok_iff.mpr ⟨_, derived, Nat.zero_le _, .number⟩
  exact ⟨Environment.standard_finite .degrees, success, rfl⟩

/-- The product of `pi` and `e`, and behind it the root of zero to the power of `-pi`. The power
divides by zero, so there is no value, but the product has one, and the power has its operands. -/
theorem calculations_stay_finite_before_a_failure :
    let environment := Environment.standard .degrees
    let product : List Token := [.atom "pi", .atom "e"]
    let root : List Token :=
      [.atom "sqrt", .openParen, .number .zero, .exponent, .minus, .atom "pi", .closeParen]
    let value := Binary64.pi.mul .e
    let power := Event.operation .power .zero Binary64.pi.neg
    environment.Finite ∧ (∀ token ∈ product ++ root, token.isFinite = true) ∧
      environment.parse product () = (.ok value, ()) ∧ value.isFinite = true ∧
      environment.parse (product ++ root) () = (.error .divideByZero, ()) ∧
      environment.Happens (Expr.ofTokens environment.arity (product ++ root)) () power ∧
      power.isFinite = true := by
  intro environment product root value power
  have finite : environment.Finite := Environment.standard_finite .degrees
  have numbers : ∀ token ∈ product ++ root, token.isFinite = true := by decide
  let constants : Expr := .adjoining (.call "pi" []) (.call "e" [])
  let exponent : Expr := .signed .minus (.call "pi" [])
  let function : Expr := .call "sqrt" [.group (.binary .power (.number .zero) exponent)]
  have former : Derives environment.arity .product product constants :=
    .adjoining (.signed (.power (.primary (.call rfl .none)))) rfl (.primary (.call rfl .none))
  have latter : Derives environment.arity .power root function := by
    have argument : Derives environment.arity .sum
        [.number .zero, .exponent, .minus, .atom "pi"]
        (.binary .power (.number .zero) exponent) := by
      refine .product (.signed (.power (.raised .number (.negative ?_))))
      exact .power (.primary (.call rfl .none))
    exact .primary (.call rfl (.more argument .none))
  have evaluated : Evaluates environment constants () value () :=
    .adjoining (.call .none rfl) (.call .none rfl) (by decide +kernel)
  have success : environment.parse product () = (.ok value, ()) :=
    Environment.parse_eq_ok_iff.mpr ⟨constants, .product former, by decide, evaluated⟩
  have read : Expr.ofTokens environment.arity (product ++ root) =
      .ok (.adjoining constants function) :=
    Expr.ofTokens_eq_ok_iff.mpr ⟨.product (.adjoining former rfl latter), by decide⟩
  have failed : environment.parse (product ++ root) () = (.error .divideByZero, ()) := by
    rw [Environment.parse, read]
    exact Evaluation.bind_of_ok evaluated.evaluate
  have happens : environment.Happens (Expr.ofTokens environment.arity (product ++ root)) ()
      power := by
    have negated : Evaluates environment exponent () Binary64.pi.neg () :=
      .negative (.call .none rfl)
    rw [read]
    exact .latter evaluated (.argument (.first (.group (.operation .number negated))))
  obtain ⟨-, values⟩ := calculations_stay_finite.1 environment finite product
    (fun token member => numbers token (List.mem_append_left root member)) ()
  obtain ⟨events, -⟩ :=
    calculations_stay_finite.1 environment finite (product ++ root) numbers ()
  exact ⟨finite, numbers, success, values _ _ success, failed, happens, events _ happens⟩

end PocketCalc
