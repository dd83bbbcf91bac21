import PocketCalc.Proofs.CallPrefixes
import PocketCalc.Proofs.ResolvedAtoms

/-! A parenthesis that is reported as unmatched is one. It is noticed far from where it stands, at
the end of the tokens or behind a whole sum, but what readers have taken by then never closes more
than it opens. -/

namespace PocketCalc

variable {σ : Type} {arity : String → Option Nat} {tokens : List Token}

namespace Token

private theorem not_balanced_of_surplus
    (more : tokens.count .closeParen < tokens.count .openParen) : ¬ Balanced tokens :=
  fun balanced => Nat.ne_of_lt more balanced.closed_eq

/-- The parenthesis behind tokens that are balanced closes none of theirs. -/
theorem not_balanced_of_leftover {front rest : List Token} (balanced : Balanced front) :
    ¬ Balanced (front ++ .closeParen :: rest) := by
  intro whole
  have initial : front ++ [.closeParen] <+: front ++ .closeParen :: rest :=
    ⟨rest, (List.append_cons _ _ _).symm⟩
  have closed := whole.closed_le _ initial
  rw [List.count_append, List.count_append, balanced.closed_eq] at closed
  exact Nat.not_succ_le_self _ closed

end Token

namespace Frame

variable {frame called : Frame}

/-- The group whose end is missing has only closed what was opened in it. -/
theorem Raises.surplus (raised : frame.Raises arity .unmatchedParenthesis) :
    frame.input.count .closeParen < frame.input.count .openParen := by
  cases raised with
  | @unclosed depth rest expr read =>
    have found := finds_of_reading read
    have same : rest = expr.tokens := by simpa using found.tokens
    have balanced : Token.Balanced rest := same ▸ found.derived.balanced
    have other : Token.openParen ≠ .closeParen := nofun
    rw [List.count_cons_of_ne other, List.count_cons_self, balanced.closed_eq]
    exact Nat.lt_succ_self _

private theorem surplus_of_chain (chain : Relation.ReflTransGen (Calls arity) frame called)
    (more : called.input.count .closeParen < called.input.count .openParen) :
    frame.input.count .closeParen < frame.input.count .openParen := by
  obtain ⟨taken, same, takes⟩ := exists_taken_of_chain chain
  rw [same, List.count_append, List.count_append]
  exact Nat.add_lt_add_of_le_of_lt takes.closed_le more

end Frame

theorem Expr.not_balanced_of_ofTokens
    (failed : Fault.unmatchedParenthesis.Interrupts (ofTokens arity tokens)) :
    ¬ Token.Balanced tokens := by
  obtain ⟨called, chain, raised⟩ | ⟨-, expr, rest, read⟩ := ofTokens_interrupts failed
  · exact Token.not_balanced_of_surplus (Frame.surplus_of_chain chain raised.surplus)
  · have found := Frame.finds_of_reading read
    have same : tokens = expr.tokens ++ .closeParen :: rest := found.tokens
    rw [same]
    exact Token.not_balanced_of_leftover found.derived.balanced

/-- Unless an atom reports it, a parenthesis is unmatched only if the parentheses of the tokens
are not balanced, and what is not balanced has no value. -/
theorem unmatched_parentheses_are_unbalanced (environment : Environment σ) (tokens : List Token) :
    (∀ before after, environment.parse tokens before = (.error .unmatchedParenthesis, after) →
      environment.Refuses tokens before .unmatchedParenthesis ∨ ¬ Token.Balanced tokens) ∧
    (¬ Token.Balanced tokens →
      ∀ before, ∃ fault after, environment.parse tokens before = (.error fault, after)) := by
  constructor
  · intro before after failed
    exact (Environment.parse_interrupted failed (by rintro ⟨⟩)).imp_right
      Expr.not_balanced_of_ofTokens
  · intro unbalanced before
    rcases outcome : environment.parse tokens before with ⟨fault | value, after⟩
    · exact ⟨fault, after, rfl⟩
    · obtain ⟨expr, derived, -⟩ := Environment.parse_eq_ok_iff.mp outcome
      exact absurd derived.balanced unbalanced

example : (Environment.standard .radians).parse [.openParen, .number .zero] () =
    (.error .unmatchedParenthesis, ()) := by
  cbv

end PocketCalc
