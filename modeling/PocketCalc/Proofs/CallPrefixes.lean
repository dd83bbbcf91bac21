import PocketCalc.Proofs.FollowSets
import PocketCalc.Proofs.Parentheses

/-! What a reader has taken when it enters another one: nothing, or what pairs its parentheses up
and then the token that asks for more. The reader that is entered is given all that is left. -/

namespace PocketCalc

variable {arity : String → Option Nat}

private theorem Sign.endsOperand_token (sign : Sign) : sign.token.endsOperand = false := by
  cases sign <;> rfl

namespace Frame

variable {caller called : Frame}

/-- Nothing else is taken at the end of the tokens than something that an operand is to follow. -/
structure Takes (taken rest : List Token) : Prop where
  closed_le : taken.count .closeParen ≤ taken.count .openParen
  opens : rest = [] → taken = [] ∨ ∃ before token, taken = before ++ [token] ∧
    token.endsOperand = false

namespace Takes

variable {taken rest : List Token}

private theorem nothing (rest : List Token) : Takes [] rest where
  closed_le := Nat.le_refl 0
  opens _ := .inl rfl

private theorem whole (balanced : Token.Balanced taken) (remains : rest ≠ []) :
    Takes taken rest where
  closed_le := Nat.le_of_eq balanced.closed_eq
  opens empty := absurd empty remains

private theorem opening (balanced : Token.Balanced taken) {token : Token}
    (awaits : token.endsOperand = false) (rest : List Token) : Takes (taken ++ [token]) rest where
  closed_le := by
    have other : token ≠ .closeParen := by
      rintro rfl
      cases awaits
    rw [List.count_append, List.count_append, balanced.closed_eq, List.count_singleton,
      beq_false_of_ne other]
    exact Nat.le_add_right _ _
  opens _ := .inr ⟨taken, token, rfl, awaits⟩

theorem trans {further : List Token} (former : Takes taken (further ++ rest))
    (latter : Takes further rest) : Takes (taken ++ further) rest where
  closed_le := by
    rw [List.count_append, List.count_append]
    exact Nat.add_le_add former.closed_le latter.closed_le
  opens empty := by
    obtain rfl | ⟨before, token, rfl, awaits⟩ := latter.opens empty
    · rw [List.append_nil]
      exact former.opens empty
    · exact .inr ⟨taken ++ before, token, (List.append_assoc _ _ _).symm, awaits⟩

end Takes

theorem Calls.exists_taken (call : Calls arity caller called) :
    ∃ taken, caller.input = taken ++ called.input ∧ Takes taken called.input := by
  cases call with
  | product | signed | power | primary => exact ⟨[], rfl, .nothing _⟩
  | term sign reached =>
    obtain ⟨expr, same, within, -⟩ := reached.exists_sum
    exact ⟨expr.tokens ++ [sign.token], by rw [same, List.append_cons],
      .opening within.derived.balanced sign.endsOperand_token _⟩
  | @factor _ _ token _ explicit reached =>
    obtain ⟨expr, same, within, -⟩ := reached.exists_product
    refine ⟨expr.tokens ++ [token], by rw [same, List.append_cons],
      .opening within.derived.balanced ?_ _⟩
    obtain rfl | rfl := explicit <;> rfl
  | adjoining _ reached =>
    obtain ⟨expr, same, within, -⟩ := reached.exists_product
    exact ⟨expr.tokens, same, .whole within.derived.balanced (List.cons_ne_nil _ _)⟩
  | operand sign inside =>
    exact ⟨[sign.token], rfl, .opening Token.balanced_nil sign.endsOperand_token _⟩
  | @exponent _ _ base _ inside read =>
    have found := finds_of_reading read
    refine ⟨base.tokens ++ [.exponent], ?_, .opening found.derived.balanced rfl _⟩
    rw [← List.append_cons]
    exact found.tokens
  | group inside => exact ⟨[.openParen], rfl, .opening Token.balanced_nil rfl _⟩
  | @argument depth name _ _ _ arguments _ _ inside known less read inhabited =>
    obtain ⟨tokens, groups, -⟩ := groups_of_read read
    refine ⟨.atom name :: Expr.allTokens arguments, ?_, .whole ?_ (List.cons_ne_nil _ _)⟩
    · rw [List.cons_append, ← tokens]
    · exact groups.balanced.cons _ (by simp) (by simp)

/-- The same down a chain of calls. -/
theorem exists_taken_of_chain (chain : Relation.ReflTransGen (Calls arity) caller called) :
    ∃ taken, caller.input = taken ++ called.input ∧ Takes taken called.input := by
  induction chain with
  | refl => exact ⟨[], rfl, .nothing _⟩
  | tail _ call ih =>
    obtain ⟨taken, same, takes⟩ := ih
    obtain ⟨further, rest, takesFurther⟩ := call.exists_taken
    rw [rest] at same takes
    exact ⟨taken ++ further, by rw [same, List.append_assoc], takes.trans takesFurther⟩

end Frame
end PocketCalc
