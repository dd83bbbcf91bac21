import PocketCalc.Proofs.CallPrefixes
import PocketCalc.Proofs.LimitedEvaluation
import PocketCalc.Proofs.ResolvedAtoms

/-! How many tokens a reader takes, and what it may meet behind them. A sum is left only at the
end or before a closing parenthesis, so what a report calls unexpected is a number behind an
operand, or a token with which no operand begins. -/

namespace PocketCalc

variable {σ : Type} {environment : Environment σ} {arity : String → Option Nat}

namespace Frame

variable {frame : Frame} {expr : Expr} {rest : List Token}

def result (environment : Environment σ) (frame : Frame) : Evaluation σ Argument :=
  match frame.reading environment.arity with
  | .error interruption => environment.interrupt interruption
  | .ok (expr, _) => do
    let value ← expr.evaluate environment
    return ⟨value, expr.width⟩

private theorem Finds.width_pos (found : frame.Finds arity expr rest) : 1 ≤ expr.width := by
  obtain ⟨first, others, same, -⟩ := found.derived.exists_first
  rw [← Expr.length_tokens, same, List.length_cons]
  exact Nat.succ_le_succ (Nat.zero_le _)

private theorem Finds.width_le (found : frame.Finds arity expr rest) :
    expr.width ≤ frame.input.length := by
  rw [found.tokens, List.length_append, Expr.length_tokens]
  exact Nat.le_add_right _ _

/-- The token behind those that were taken. -/
theorem Finds.getElem?_width (found : frame.Finds arity expr rest) :
    frame.input[expr.width]? = rest.head? := by
  rw [found.tokens, ← Expr.length_tokens, List.getElem?_append_right (Nat.le_refl _),
    Nat.sub_self, List.head?_eq_getElem?]

private theorem exists_finds {before after : σ} {answer : Argument}
    (success : frame.result environment before = (.ok answer, after)) :
    ∃ expr rest, frame.Finds environment.arity expr rest ∧ answer.tokensRead = expr.width := by
  unfold result at success
  cases read : frame.reading environment.arity with
  | error interruption =>
    rw [read] at success
    exact absurd success Environment.interrupt_ne_ok
  | ok reading =>
    rw [read] at success
    obtain ⟨value, _, _, same⟩ := Evaluation.bind_eq_ok.mp success
    cases same
    exact ⟨reading.1, reading.2, finds_of_reading read, rfl⟩

/-- A reader is given a part of what its caller was given, up to the end. -/
theorem Calls.exists_drop {caller called : Frame} (call : Calls arity caller called) :
    ∃ start ≤ caller.input.length, called.input = caller.input.drop start := by
  obtain ⟨taken, same, -⟩ := call.exists_taken
  refine ⟨taken.length, ?_, ?_⟩
  · rw [same, List.length_append]
    exact Nat.le_add_right _ _
  · rw [same, List.drop_left]

end Frame

namespace Environment

/-- Parsing is reading a sum and looking at the token behind it. -/
theorem parse_eq_result (environment : Environment σ) (tokens : List Token) :
    environment.parse tokens = (do
      let answer ← Frame.result environment ⟨.sum, 0, tokens⟩
      match tokens[answer.tokensRead]? with
      | none => pure answer.value
      | some .closeParen => throw .unmatchedParenthesis
      | some token => throw (.unexpectedToken token.text .operator)) := by
  have reading : Frame.reading environment.arity ⟨.sum, 0, tokens⟩ =
      (Level.remaining environment.arity (Expr.nestingLimit + 1)).sum.read tokens := rfl
  unfold parse Expr.ofTokens Frame.result
  rw [← reading]
  cases read : Frame.reading environment.arity ⟨.sum, 0, tokens⟩ with
  | error interruption => exact (interrupt_bind interruption _).symm
  | ok result =>
    obtain ⟨expr, rest⟩ := result
    have behind := (Frame.finds_of_reading read).getElem?_width
    dsimp only at behind
    simp only [bind_assoc, pure_bind, behind]
    cases rest with
    | nil => simp [evaluate]
    | cons token others =>
      cases token <;> simp [evaluate, interrupt, Expr.evaluateAll]

end Environment

namespace Frame

variable {called : Frame} {tokens : List Token} {found : String} {expected : Expectation}

/-- Where a reader that has raised the fault stands in the tokens. -/
theorem Raises.unexpectedToken (raised : called.Raises arity (.unexpectedToken found expected))
    (chain : Relation.ReflTransGen (Calls arity) ⟨.sum, 0, tokens⟩ called) :
    expected = .number ∨ expected = .operator ∧ ∃ front last value rest,
      tokens = front ++ last :: .number value :: rest ∧ last.endsOperand = true ∧
      found = toString value := by
  obtain ⟨taken, same, -⟩ := exists_taken_of_chain chain
  cases raised with
  | misplaced => exact .inl rfl
  | @adjacent depth input value rest reached =>
    obtain ⟨expr, position, within, -⟩ := reached.exists_product
    obtain ⟨before, last, ending, ends⟩ := within.derived.exists_last
    refine .inr ⟨rfl, taken ++ before, last, value, rest, ?_, ends, rfl⟩
    dsimp only at same
    rw [same, position, ending, List.append_assoc, List.append_assoc]
    rfl

end Frame

/-- Whatever is read has at least one token and no more than there are, a reader is given what
its caller has left, and behind a sum there is nothing or a closing parenthesis. So unless an atom
reports it, nothing is found where a closing parenthesis is expected, and where an operator is
expected only a number, which stands directly behind an operand. -/
theorem unexpected_tokens_are_misplaced (environment : Environment σ) (tokens : List Token) :
    (∀ (frame : Frame) before answer after,
      frame.result environment before = (.ok answer, after) →
      1 ≤ answer.tokensRead ∧ answer.tokensRead ≤ frame.input.length ∧
      (frame.category = .sum → ∀ token ∈ frame.input[answer.tokensRead]?, token = .closeParen)) ∧
    (∀ caller called, Frame.Calls environment.arity caller called →
      ∃ start ≤ caller.input.length, called.input = caller.input.drop start) ∧
    (environment.parse tokens = (do
      let answer ← Frame.result environment ⟨.sum, 0, tokens⟩
      match tokens[answer.tokensRead]? with
      | none => pure answer.value
      | some .closeParen => throw .unmatchedParenthesis
      | some token => throw (.unexpectedToken token.text .operator))) ∧
    ∀ before found expected after,
      environment.parse tokens before = (.error (.unexpectedToken found expected), after) →
      environment.Refuses tokens before (.unexpectedToken found expected) ∨
        expected ≠ .closeParen ∧ (expected = .operator → ∃ front last value rest,
          tokens = front ++ last :: .number value :: rest ∧ last.endsOperand = true ∧
          found = toString value) := by
  refine ⟨?_, fun _ _ call => call.exists_drop, environment.parse_eq_result tokens, ?_⟩
  · intro frame before answer after success
    obtain ⟨expr, rest, found, taken⟩ := Frame.exists_finds success
    rw [taken, found.getElem?_width]
    refine ⟨found.width_pos, found.width_le, ?_⟩
    intro sum token behind
    have follows := found.precedes token behind
    rw [sum] at follows
    cases token with
    | closeParen => rfl
    | plus | minus | divide | multiply | exponent | openParen | number | atom => cases follows
  · intro before found expected after failed
    refine (Environment.parse_interrupted failed (by rintro ⟨⟩)).imp_right fun reading => ?_
    obtain ⟨called, chain, raised⟩ | ⟨impossible, -⟩ := Expr.ofTokens_interrupts reading
    · obtain rfl | ⟨rfl, origin⟩ := raised.unexpectedToken chain
      · exact ⟨nofun, nofun⟩
      · exact ⟨nofun, fun _ => origin⟩
    · cases impossible

example (value : Binary64) :
    (Environment.standard .radians).parse [.closeParen, .number value] () =
      (.error (.unexpectedToken "CloseParen" .number), ()) := by
  rfl

example (value : Binary64) :
    (Environment.standard .radians).parse [.number value, .number value] () =
      (.error (.unexpectedToken (toString value) .operator), ()) := by
  cbv

end PocketCalc
