import PocketCalc.Proofs.Evaluation
import PocketCalc.Proofs.ReaderCompleteness
import Mathlib.Data.List.Perm.Basic

/-! Reading and evaluating together refine the grammar: a list of tokens has a value exactly
if it is derived, is not nested too deeply, and its tree evaluates. Which atoms were resolved
on the way is observed through an environment that keeps a log. -/

namespace PocketCalc

variable {σ : Type} {environment : Environment σ} {before after : σ}

theorem Environment.interrupt_ne_ok {α : Type} {interruption : Interruption} {value : α} :
    environment.interrupt interruption before ≠ (.ok value, after) := by
  intro success
  obtain ⟨_, _, _, impossible⟩ := Evaluation.bind_eq_ok.mp success
  cases impossible

theorem Environment.evaluate_eq_ok_iff {reading : Except Interruption Expr} {value : Binary64} :
    environment.evaluate reading before = (.ok value, after) ↔
      ∃ expr, reading = .ok expr ∧ Evaluates environment expr before value after := by
  cases reading with
  | ok expr =>
    simp only [Environment.evaluate, Expr.evaluate_eq_ok_iff, Except.ok.injEq, exists_eq_left']
  | error interruption =>
    refine iff_of_false interrupt_ne_ok ?_
    rintro ⟨_, impossible, _⟩
    cases impossible

abbrev Environment.parse (environment : Environment σ) (tokens : List Token) :
    Evaluation σ Binary64 :=
  environment.evaluate (Expr.ofTokens environment.arity tokens)

theorem Environment.parse_eq_ok_iff {tokens : List Token} {value : Binary64} :
    environment.parse tokens before = (.ok value, after) ↔
      ∃ expr, Derives environment.arity .sum tokens expr ∧ expr.nesting ≤ Expr.nestingLimit ∧
        Evaluates environment expr before value after := by
  simp only [evaluate_eq_ok_iff, Expr.ofTokens_eq_ok_iff, and_assoc]

structure Call where
  name : String
  arguments : List Argument

/-- The same environment with every request written down, the latest last. -/
def Environment.logged (environment : Environment σ) : Environment (σ × List Call) where
  arity := environment.arity
  resolve name arguments := fun (state, calls) =>
    let (result, state) := environment.resolve name arguments state
    (result, state, calls ++ [⟨name, arguments⟩])

def Token.name? : Token → Option String
  | .atom name => some name
  | _ => none

mutual

/-- Each atom of an expression is resolved once in evaluating it. -/
theorem Evaluates.exists_calls {expr : Expr} {before after : σ} {value : Binary64} :
    Evaluates environment expr before value after →
      ∃ made : List Call,
        (made.map Call.name).Perm (expr.tokens.filterMap Token.name?) ∧
        ∀ calls, Evaluates environment.logged expr (before, calls) value (after, calls ++ made)
  | .number => ⟨[], .nil, fun _ => by simpa using .number⟩
  | .group inside => by
    obtain ⟨made, atoms, kept⟩ := inside.exists_calls
    refine ⟨made, ?_, fun calls => .group (kept calls)⟩
    simpa [Expr.tokens, Token.name?, List.filterMap_cons] using atoms
  | .positive inside => by
    obtain ⟨made, atoms, kept⟩ := inside.exists_calls
    exact ⟨made, atoms, fun calls => .positive (kept calls)⟩
  | .negative inside => by
    obtain ⟨made, atoms, kept⟩ := inside.exists_calls
    exact ⟨made, atoms, fun calls => .negative (kept calls)⟩
  | @Evaluates.binary _ _ operator _ _ _ _ _ _ _ left right nonzero finite => by
    obtain ⟨first, leftAtoms, leftward⟩ := left.exists_calls
    obtain ⟨second, rightAtoms, rightward⟩ := right.exists_calls
    refine ⟨first ++ second, ?_, fun calls => ?_⟩
    · have none : Token.name? operator.token = none := by cases operator <;> rfl
      simpa [Expr.tokens, none, List.filterMap_cons] using leftAtoms.append rightAtoms
    · rw [← List.append_assoc]
      exact .binary (leftward calls) (rightward _) nonzero finite
  | .adjoining left right finite => by
    obtain ⟨first, leftAtoms, leftward⟩ := left.exists_calls
    obtain ⟨second, rightAtoms, rightward⟩ := right.exists_calls
    refine ⟨first ++ second, ?_, fun calls => ?_⟩
    · simpa [Expr.tokens] using leftAtoms.append rightAtoms
    · rw [← List.append_assoc]
      exact .adjoining (leftward calls) (rightward _) finite
  | @Evaluates.call _ _ name _ _ values _ _ _ arguments resolved => by
    obtain ⟨made, atoms, kept⟩ := arguments.exists_calls
    refine ⟨made ++ [⟨name, values⟩], ?_, fun calls => .call (kept calls) ?_⟩
    · -- The atom stands before its arguments, but it is resolved after them.
      rw [List.map_append]
      exact (List.perm_append_singleton name _).trans (atoms.cons name)
    · simp only [Environment.logged, resolved, List.append_assoc]

theorem EvaluatesAll.exists_calls {exprs : List Expr} {before after : σ} {values : List Argument} :
    EvaluatesAll environment exprs before values after →
      ∃ made : List Call,
        (made.map Call.name).Perm ((Expr.allTokens exprs).filterMap Token.name?) ∧
        ∀ calls, EvaluatesAll environment.logged exprs (before, calls) values (after, calls ++ made)
  | .none => ⟨[], .nil, fun _ => by simpa using .none⟩
  | .more first others => by
    obtain ⟨one, firstAtoms, leftward⟩ := first.exists_calls
    obtain ⟨rest, otherAtoms, rightward⟩ := others.exists_calls
    refine ⟨one ++ rest, ?_, fun calls => ?_⟩
    · simpa [Expr.allTokens] using firstAtoms.append otherAtoms
    · rw [← List.append_assoc]
      exact .more (leftward calls) (rightward _)

end

/-- A list of tokens has a value exactly if the grammar derives it, its one tree is nested no
deeper than the limit, and evaluating that tree from left to right succeeds. The atoms are then
resolved once each, and a list that is not derived never has a value. -/
theorem parse_refines_grammar (environment : Environment σ) (tokens : List Token) :
    (∀ before value after, environment.parse tokens before = (.ok value, after) ↔
      ∃ expr, Derives environment.arity .sum tokens expr ∧ expr.nesting ≤ Expr.nestingLimit ∧
        Evaluates environment expr before value after) ∧
    (∀ expr other, Derives environment.arity .sum tokens expr →
      Derives environment.arity .sum tokens other → expr = other) ∧
    (∀ before value after, environment.parse tokens before = (.ok value, after) →
      ∃ calls : List Call,
        environment.logged.parse tokens (before, []) = (.ok value, after, calls) ∧
        (calls.map Call.name).Perm (tokens.filterMap Token.name?)) ∧
    ((¬ ∃ expr, Derives environment.arity .sum tokens expr) →
      ∀ before, ∃ fault after, environment.parse tokens before = (.error fault, after)) := by
  refine ⟨fun before value after => Environment.parse_eq_ok_iff,
    fun expr other => Derives.unique, ?_, ?_⟩
  · intro before value after success
    obtain ⟨expr, derived, shallow, evaluated⟩ := Environment.parse_eq_ok_iff.mp success
    obtain ⟨made, atoms, kept⟩ := evaluated.exists_calls
    rw [derived.tokens_eq] at atoms
    exact ⟨made, Environment.parse_eq_ok_iff.mpr ⟨expr, derived, shallow, kept []⟩, atoms⟩
  · intro underived before
    rcases outcome : environment.parse tokens before with ⟨fault | value, after⟩
    · exact ⟨fault, after, rfl⟩
    · obtain ⟨expr, derived, _⟩ := Environment.parse_eq_ok_iff.mp outcome
      exact absurd ⟨expr, derived⟩ underived

end PocketCalc
