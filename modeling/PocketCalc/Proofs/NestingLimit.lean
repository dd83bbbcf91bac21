import PocketCalc.Proofs.CallStacks
import PocketCalc.Proofs.LimitedEvaluation
import PocketCalc.Proofs.ResolvedAtoms

/-! The limit of nesting bounds both the readers that are at work at a time and the trees that
have a value. -/

namespace PocketCalc

variable {σ : Type} {environment : Environment σ} {tokens : List Token} {expr : Expr}

namespace Derives

theorem parse_eq_evaluateWithin (derived : Derives environment.arity .sum tokens expr) :
    environment.parse tokens = expr.evaluateWithin environment Expr.nestingLimit := by
  obtain deep | shallow := Nat.lt_or_ge Expr.nestingLimit expr.nesting
  · obtain ⟨interruption, read, -, same⟩ := derived.runsOut_of_deep deep
    rw [Environment.parse, read, Environment.evaluate, same]
  · rw [derived.parse_of_shallow shallow, Expr.evaluateWithin_eq shallow]

/-- Reading meets no limit, so only an atom can report one. -/
theorem refuses_of_shallow (derived : Derives environment.arity .sum tokens expr)
    (shallow : expr.nesting ≤ Expr.nestingLimit) {before after : σ}
    (failed : environment.parse tokens before = (.error .nestingTooDeep, after)) :
    environment.Refuses tokens before .nestingTooDeep := by
  have read := Expr.ofTokens_eq_ok_iff.mpr ⟨derived, shallow⟩
  obtain refused | ⟨complete, interrupted⟩ := Environment.parse_interrupted failed (by rintro ⟨⟩)
  · exact refused
  · rw [read] at interrupted
    cases interrupted

theorem fails_of_deep (derived : Derives environment.arity .sum tokens expr)
    (deep : Expr.nestingLimit < expr.nesting) (before : σ) :
    ∃ fault after, environment.parse tokens before = (.error fault, after) ∧
      (fault = .nestingTooDeep ∨ fault.OfOperation ∨ environment.Refuses tokens before fault) := by
  obtain ⟨interruption, read, limit, -⟩ := derived.runsOut_of_deep deep
  rcases outcome : environment.parse tokens before with ⟨fault | value, after⟩
  · refine ⟨fault, after, rfl, ?_⟩
    obtain refused | operation | ⟨complete, interrupted⟩ := Environment.parse_error outcome
    · exact .inr (.inr refused)
    · exact .inr (.inl operation)
    · rw [read] at interrupted
      cases interrupted
      exact .inl limit
  · obtain ⟨other, success, -⟩ := Environment.evaluate_eq_ok_iff.mp outcome
    rw [read] at success
    cases success

end Derives

/-- Reading goes down through no more levels than the limit, and a reader enters itself again only
at a deeper one, so at most five readers a level are at work at a time, whatever the tokens are.
No reader depends on any other reading than those of the readers it enters, and at the last level
there is nothing more to enter. Of a derived list the outcome is that of evaluating its tree
within the limit. If its levels are enough, their number makes no difference, and the fault of the
limit is met only if an atom is resolved with it. If they are not, there is no value, and the fault
is that of the limit unless an operation or an atom has failed before. -/
theorem nesting_is_limited (environment : Environment σ) (tokens : List Token) :
    (∀ stack, CallStack environment.arity tokens stack →
      (∀ frame ∈ stack, frame.depth ≤ Expr.nestingLimit) ∧
        stack.length ≤ 5 * (Expr.nestingLimit + 1)) ∧
    (∀ caller called, Relation.TransGen (Frame.Calls environment.arity) caller called →
      called.category = caller.category → caller.depth < called.depth) ∧
    (∀ frame inner, Frame.Answered environment.arity inner frame →
      frame.depth < Expr.nestingLimit →
      (inner.reader environment.arity frame.category).read frame.input =
        frame.reading environment.arity) ∧
    Level.within environment.arity Expr.nestingLimit = Level.exhausted ∧
    ∀ expr, Derives environment.arity .sum tokens expr →
      environment.parse tokens = expr.evaluateWithin environment Expr.nestingLimit ∧
      (expr.nesting ≤ Expr.nestingLimit → environment.parse tokens = expr.evaluate environment ∧
        ∀ before after, environment.parse tokens before = (.error .nestingTooDeep, after) →
          environment.Refuses tokens before .nestingTooDeep) ∧
      (Expr.nestingLimit < expr.nesting → ∀ before, ∃ fault after,
        environment.parse tokens before = (.error fault, after) ∧
          (fault = .nestingTooDeep ∨ fault.OfOperation ∨
            environment.Refuses tokens before fault)) := by
  refine ⟨fun stack calls => ⟨calls.depth_le, calls.length_le⟩,
    fun caller called => Frame.depth_lt_of_transGen, fun frame inner answered => answered.read_eq,
    rfl, fun expr derived => ⟨derived.parse_eq_evaluateWithin, fun shallow => ?_,
      derived.fails_of_deep⟩⟩
  exact ⟨derived.parse_of_shallow shallow, fun _ _ => derived.refuses_of_shallow shallow⟩

end PocketCalc
