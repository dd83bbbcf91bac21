import PocketCalc.Expr.Evaluate

/-! Evaluation as a relation, one rule for each kind of expression. A value is related to an
expression only if every operation on the way is checked and every atom resolved; the state
passes through operands and arguments from left to right. -/

namespace PocketCalc

variable {σ α β : Type}

namespace Evaluation

theorem bind_apply (first : Evaluation σ α) (next : α → Evaluation σ β) (before : σ) :
    (first >>= next) before =
      (match (first before).1 with
        | .ok result => next result
        | .error fault => throw fault) (first before).2 := by
  change ExceptT.bindCont next (first before).1 (first before).2 = _
  cases (first before).1 <;> rfl

theorem bind_of_ok {first : Evaluation σ α} {next : α → Evaluation σ β} {before middle : σ}
    {result : α} (success : first before = (.ok result, middle)) :
    (first >>= next) before = next result middle := by
  rw [bind_apply, success]

theorem bind_eq_ok {first : Evaluation σ α} {next : α → Evaluation σ β} {before after : σ}
    {value : β} : (first >>= next) before = (.ok value, after) ↔
      ∃ result middle, first before = (.ok result, middle) ∧
        next result middle = (.ok value, after) := by
  rw [bind_apply]
  obtain ⟨fault | result, middle⟩ := first before
  · constructor
    · intro success
      cases success
    · rintro ⟨_, _, impossible, _⟩
      cases impossible
  · constructor
    · exact fun success => ⟨_, _, rfl, success⟩
    · rintro ⟨_, _, same, success⟩
      cases same
      exact success

theorem pure_eq_ok {result value : α} {before after : σ} :
    (pure result : Evaluation σ α) before = (.ok value, after) ↔
      result = value ∧ before = after := by
  constructor
  · intro success
    cases success
    exact ⟨rfl, rfl⟩
  · rintro ⟨rfl, rfl⟩
    rfl

theorem ofExcept_eq_ok {outcome : Except Fault α} {value : α} {before after : σ} :
    (ofExcept outcome : Evaluation σ α) before = (.ok value, after) ↔
      outcome = .ok value ∧ before = after := by
  cases outcome with
  | ok result =>
    rw [Except.ok.injEq]
    exact pure_eq_ok
  | error fault =>
    constructor
    · intro success
      cases success
    · rintro ⟨impossible, _⟩
      cases impossible

end Evaluation

/-- An operation has a value if it does not divide by zero and its result is a number and
within the range. -/
theorem Operator.apply_eq_ok {operator : Operator} {left right value : Binary64} :
    operator.apply left right = .ok value ↔
      operator.dividesByZero left right = false ∧
        (operator.compute left right).isFinite = true ∧ operator.compute left right = value := by
  unfold apply
  cases operator.dividesByZero left right
  · cases operator.compute left right <;> simp [Binary64.isFinite]
  · simp

/-- The reports of an operation that has no finite result. -/
inductive Fault.OfOperation : Fault → Prop
  | divideByZero : OfOperation .divideByZero
  | undefined (calculation : Quotation) : OfOperation (.undefined calculation)
  | wouldOverflow (calculation : Quotation) : OfOperation (.wouldOverflow calculation)

def Evaluation.FailsOnly (possible : Fault → Prop) (calculation : Evaluation σ α) : Prop :=
  ∀ ⦃before fault after⦄, calculation before = (.error fault, after) → possible fault

namespace Evaluation

theorem failsOnly_pure (possible : Fault → Prop) (value : α) :
    FailsOnly possible (pure value : Evaluation σ α) := by
  intro before fault after failed
  cases failed

theorem FailsOnly.bind {possible : Fault → Prop} {first : Evaluation σ α}
    {next : α → Evaluation σ β} (former : first.FailsOnly possible)
    (latter : ∀ result, (next result).FailsOnly possible) :
    (first >>= next).FailsOnly possible := by
  intro before fault after failed
  rw [bind_apply] at failed
  cases outcome : first before with
  | mk result middle =>
    rw [outcome] at failed
    cases result with
    | error other =>
      cases failed
      exact former outcome
    | ok result => exact latter result failed

theorem failsOnly_apply (operator : Operator) (left right : Binary64) :
    FailsOnly Fault.OfOperation (ofExcept (operator.apply left right) : Evaluation σ Binary64) := by
  unfold Operator.apply
  split
  · intro before fault after failed
    cases failed
    exact .divideByZero
  · split <;> intro before fault after failed <;> cases failed
    · exact .undefined _
    · exact .wouldOverflow _

end Evaluation

variable (environment : Environment σ)

mutual

inductive Evaluates : Expr → σ → Binary64 → σ → Prop
  | number {value state} : Evaluates (.number value) state value state
  | group {inner before value after} : Evaluates inner before value after →
      Evaluates (.group inner) before value after
  | positive {operand before value after} : Evaluates operand before value after →
      Evaluates (.signed .plus operand) before value after
  | negative {operand before value after} : Evaluates operand before value after →
      Evaluates (.signed .minus operand) before value.neg after
  | binary {operator left right before first middle second after} :
      Evaluates left before first middle → Evaluates right middle second after →
      operator.dividesByZero first second = false →
      (operator.compute first second).isFinite = true →
      Evaluates (.binary operator left right) before (operator.compute first second) after
  | adjoining {left right before first middle second after} :
      Evaluates left before first middle → Evaluates right middle second after →
      (first.mul second).isFinite = true →
      Evaluates (.adjoining left right) before (first.mul second) after
  | call {name arguments before values middle value after} :
      EvaluatesAll arguments before values middle →
      environment.resolve name values middle = (.ok value, after) →
      Evaluates (.call name arguments) before value after

inductive EvaluatesAll : List Expr → σ → List Argument → σ → Prop
  | none {state} : EvaluatesAll [] state [] state
  | more {first others before value middle values after} :
      Evaluates first before value middle → EvaluatesAll others middle values after →
      EvaluatesAll (first :: others) before (⟨value, first.width⟩ :: values) after

end

variable {environment} {before after : σ}

mutual

theorem Evaluates.of_evaluate {expr : Expr} {before after : σ} {value : Binary64}
    (success : expr.evaluate environment before = (.ok value, after)) :
    Evaluates environment expr before value after := by
  match expr with
  | .number _ =>
    obtain ⟨rfl, rfl⟩ := Evaluation.pure_eq_ok.mp success
    exact .number
  | .group inner => exact .group (Evaluates.of_evaluate success)
  | .signed sign operand =>
    obtain ⟨result, middle, inside, rest⟩ := Evaluation.bind_eq_ok.mp success
    obtain ⟨rfl, rfl⟩ := Evaluation.pure_eq_ok.mp rest
    cases sign
    · exact .positive (Evaluates.of_evaluate inside)
    · exact .negative (Evaluates.of_evaluate inside)
  | .binary operator left right =>
    obtain ⟨first, middle, leftward, rest⟩ := Evaluation.bind_eq_ok.mp success
    obtain ⟨second, last, rightward, rest⟩ := Evaluation.bind_eq_ok.mp rest
    obtain ⟨checked, rfl⟩ := Evaluation.ofExcept_eq_ok.mp rest
    obtain ⟨nonzero, finite, rfl⟩ := Operator.apply_eq_ok.mp checked
    exact .binary (Evaluates.of_evaluate leftward) (Evaluates.of_evaluate rightward) nonzero finite
  | .adjoining left right =>
    obtain ⟨first, middle, leftward, rest⟩ := Evaluation.bind_eq_ok.mp success
    obtain ⟨second, last, rightward, rest⟩ := Evaluation.bind_eq_ok.mp rest
    obtain ⟨checked, rfl⟩ := Evaluation.ofExcept_eq_ok.mp rest
    obtain ⟨_, finite, rfl⟩ := Operator.apply_eq_ok.mp checked
    exact .adjoining (Evaluates.of_evaluate leftward) (Evaluates.of_evaluate rightward) finite
  | .call name arguments =>
    obtain ⟨values, middle, inside, resolved⟩ := Evaluation.bind_eq_ok.mp success
    exact .call (EvaluatesAll.of_evaluateAll inside) resolved

theorem EvaluatesAll.of_evaluateAll {exprs : List Expr} {before after : σ} {values : List Argument}
    (success : Expr.evaluateAll environment exprs before = (.ok values, after)) :
    EvaluatesAll environment exprs before values after := by
  match exprs with
  | [] =>
    obtain ⟨rfl, rfl⟩ := Evaluation.pure_eq_ok.mp success
    exact .none
  | first :: others =>
    obtain ⟨value, middle, leftward, rest⟩ := Evaluation.bind_eq_ok.mp success
    obtain ⟨remaining, last, rightward, rest⟩ := Evaluation.bind_eq_ok.mp rest
    obtain ⟨rfl, rfl⟩ := Evaluation.pure_eq_ok.mp rest
    exact .more (Evaluates.of_evaluate leftward) (EvaluatesAll.of_evaluateAll rightward)

end

mutual

theorem Evaluates.evaluate {expr : Expr} {before after : σ} {value : Binary64} :
    Evaluates environment expr before value after →
      expr.evaluate environment before = (.ok value, after)
  | .number => rfl
  | .group inside => inside.evaluate
  | .positive inside => Evaluation.bind_eq_ok.mpr ⟨_, _, inside.evaluate, rfl⟩
  | .negative inside => Evaluation.bind_eq_ok.mpr ⟨_, _, inside.evaluate, rfl⟩
  | .binary left right nonzero finite => by
    refine Evaluation.bind_eq_ok.mpr ⟨_, _, left.evaluate, ?_⟩
    refine Evaluation.bind_eq_ok.mpr ⟨_, _, right.evaluate, ?_⟩
    exact Evaluation.ofExcept_eq_ok.mpr ⟨Operator.apply_eq_ok.mpr ⟨nonzero, finite, rfl⟩, rfl⟩
  | .adjoining left right finite => by
    refine Evaluation.bind_eq_ok.mpr ⟨_, _, left.evaluate, ?_⟩
    refine Evaluation.bind_eq_ok.mpr ⟨_, _, right.evaluate, ?_⟩
    exact Evaluation.ofExcept_eq_ok.mpr ⟨Operator.apply_eq_ok.mpr ⟨rfl, finite, rfl⟩, rfl⟩
  | .call arguments resolved =>
    Evaluation.bind_eq_ok.mpr ⟨_, _, arguments.evaluateAll, resolved⟩

theorem EvaluatesAll.evaluateAll {exprs : List Expr} {before after : σ} {values : List Argument} :
    EvaluatesAll environment exprs before values after →
      Expr.evaluateAll environment exprs before = (.ok values, after)
  | .none => rfl
  | .more first others => by
    refine Evaluation.bind_eq_ok.mpr ⟨_, _, first.evaluate, ?_⟩
    exact Evaluation.bind_eq_ok.mpr ⟨_, _, others.evaluateAll, rfl⟩

end

theorem Expr.evaluate_eq_ok_iff {expr : Expr} {value : Binary64} :
    expr.evaluate environment before = (.ok value, after) ↔
      Evaluates environment expr before value after :=
  ⟨.of_evaluate, Evaluates.evaluate⟩

end PocketCalc
