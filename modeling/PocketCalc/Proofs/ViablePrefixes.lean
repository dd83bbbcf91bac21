import PocketCalc.Proofs.CallPrefixes
import PocketCalc.Proofs.ResolvedAtoms

/-! Tokens that end too early are only incomplete. Whatever a reader waits for when they do can
still come: an operand, a closing parenthesis, the arguments that are missing. So the reader that
meets the end can be satisfied, and with it every reader that has entered another. -/

namespace PocketCalc

variable {σ : Type} {arity : String → Option Nat}

private theorem Expr.argumentNesting_append (arguments others : List Expr) :
    argumentNesting (arguments ++ others) =
      max (argumentNesting arguments) (argumentNesting others) := by
  induction arguments with
  | nil => exact (Nat.zero_max _).symm
  | cons first arguments ih =>
    rw [List.cons_append, argumentNesting, argumentNesting, ih, Nat.max_assoc]

/-- Any number of arguments can be supplied with two levels. -/
theorem DerivesGroups.exists_shallow (arity : String → Option Nat) (count : Nat) :
    ∃ tokens exprs, DerivesGroups arity count tokens exprs ∧ Expr.argumentNesting exprs ≤ 2 := by
  induction count with
  | zero => exact ⟨[], [], .none, Nat.zero_le _⟩
  | succ count ih =>
    obtain ⟨tokens, exprs, groups, shallow⟩ := ih
    have zero : Derives arity .sum [.number .zero] (.number .zero) :=
      .product (.signed (.power (.primary .number)))
    exact ⟨_, _, .more zero groups, Nat.max_le.mpr ⟨Nat.le_refl _, shallow⟩⟩

namespace Frame

variable {frame caller called : Frame} {depth : Nat}

/-- The input can be continued to an expression for which the levels that are left are enough. -/
def Completable (arity : String → Option Nat) (frame : Frame) : Prop :=
  ∃ continuation expr, Derives arity frame.category (frame.input ++ continuation) expr ∧
    expr.nesting ≤ Expr.nestingLimit - frame.depth

private theorem nesting_succ_le {expr : Expr} (inside : depth < Expr.nestingLimit)
    (shallow : expr.nesting ≤ Expr.nestingLimit - (depth + 1)) :
    expr.nesting + 1 ≤ Expr.nestingLimit - depth := by omega

/-- What is continued stands behind something that was read. -/
theorem completable_behind {category : Category} {taken rest continuation : List Token}
    {token : Token} {expr : Expr}
    (derived : Derives arity category (taken ++ token :: (rest ++ continuation)) expr)
    (shallow : expr.nesting ≤ Expr.nestingLimit - depth) :
    Completable arity ⟨category, depth, taken ++ token :: rest⟩ :=
  ⟨continuation, expr, by rwa [List.append_assoc], shallow⟩

/-- Behind an argument that can be completed the others can be supplied. -/
theorem completable_arguments {name : String} {count earlier : Nat} {input rest : List Token}
    {arguments : List Expr} (known : arity name = some count) (less : earlier < count)
    (read : Level.readArguments (Level.within arity depth).primary name earlier input =
      .ok (arguments, .openParen :: rest))
    (inside : depth < Expr.nestingLimit)
    (completable : Completable arity ⟨.primary, depth + 1, .openParen :: rest⟩) :
    Completable arity ⟨.primary, depth, .atom name :: input⟩ := by
  obtain ⟨tokens, former, bounded⟩ := groups_of_read read
  obtain ⟨continuation, expr, derived, shallow⟩ := completable
  obtain ⟨inner, rfl, whole⟩ := derived.exists_group rfl
  obtain ⟨further, rfl⟩ := Nat.exists_eq_add_of_lt less
  obtain ⟨missing, fillers, latter, flat⟩ := DerivesGroups.exists_shallow arity further
  have groups := (DerivesGroups.more whole latter).append former
  have same : .openParen :: rest ++ continuation = .openParen :: inner.tokens ++ [.closeParen] :=
    derived.tokens_eq.symm
  refine ⟨continuation ++ missing, .call name (arguments ++ .group inner :: fillers), ?_, ?_⟩
  · have extended : input ++ (continuation ++ missing) = Expr.allTokens arguments ++
        (.openParen :: inner.tokens ++ .closeParen :: missing) := by
      rw [tokens, List.append_assoc, ← List.append_assoc (.openParen :: rest), same]
      simp
    rw [List.cons_append, extended]
    exact .call known groups
  · have bracketed : inner.nesting + 1 + 1 ≤ Expr.nestingLimit - depth :=
      nesting_succ_le inside shallow
    change Expr.argumentNesting (arguments ++ .group inner :: fillers) ≤ _
    rw [Expr.argumentNesting_append]
    refine Nat.max_le.mpr ⟨bounded, Nat.max_le.mpr ⟨bracketed, ?_⟩⟩
    -- The argument has two levels, which is enough for those that are missing.
    exact Nat.le_trans flat (Nat.le_trans (Nat.le_add_left 2 _) bracketed)

/-- A reader can be satisfied if the one can that it has entered. -/
theorem Calls.completable (call : Calls arity caller called)
    (completable : called.Completable arity) : caller.Completable arity := by
  have ⟨continuation, expr, derived, shallow⟩ := completable
  cases call with
  | argument inside known less read _ =>
    exact completable_arguments known less read inside completable
  | product => exact ⟨continuation, expr, .product derived, shallow⟩
  | signed => exact ⟨continuation, expr, .signed derived, shallow⟩
  | power => exact ⟨continuation, expr, .power derived, shallow⟩
  | primary => exact ⟨continuation, expr, .primary derived, shallow⟩
  | term sign reached =>
    obtain ⟨left, rfl, within, -⟩ := reached.exists_sum
    have levels := Nat.max_le.mpr ⟨Nat.le_of_lt_succ within.nesting_lt, shallow⟩
    cases sign with
    | plus => exact completable_behind (.plus within.derived derived) levels
    | minus => exact completable_behind (.minus within.derived derived) levels
  | factor explicit reached =>
    obtain ⟨left, rfl, within, -⟩ := reached.exists_product
    have levels := Nat.max_le.mpr ⟨Nat.le_of_lt_succ within.nesting_lt, shallow⟩
    obtain rfl | rfl := explicit
    · exact completable_behind (.times within.derived derived) levels
    · exact completable_behind (.over within.derived derived) levels
  | adjoining adjoins reached =>
    obtain ⟨left, rfl, within, -⟩ := reached.exists_product
    have levels := Nat.max_le.mpr ⟨Nat.le_of_lt_succ within.nesting_lt, shallow⟩
    exact completable_behind (.adjoining within.derived adjoins derived) levels
  | operand sign inside =>
    have deeper := nesting_succ_le inside shallow
    cases sign with
    | plus => exact ⟨continuation, _, .positive derived, deeper⟩
    | minus => exact ⟨continuation, _, .negative derived, deeper⟩
  | @exponent _ input base rest inside read =>
    have found := finds_of_reading read
    have deeper := nesting_succ_le inside shallow
    have same : input = base.tokens ++ .exponent :: rest := found.tokens
    subst same
    exact completable_behind (.raised found.derived derived) (Nat.max_le.mpr ⟨found.nesting, deeper⟩)
  | group inside =>
    have deeper := nesting_succ_le inside shallow
    refine ⟨continuation ++ [.closeParen], .group expr, ?_, deeper⟩
    rw [← List.append_assoc]
    exact .group derived

private theorem completable_of_chain (chain : Relation.ReflTransGen (Calls arity) frame called)
    (completable : called.Completable arity) : frame.Completable arity := by
  induction chain using Relation.ReflTransGen.head_induction_on with
  | refl => exact completable
  | head call _ ih => exact call.completable ih

/-- Where the end is met, a number can come. -/
theorem Raises.completable (raised : frame.Raises arity .unexpectedEndOfInput) :
    frame.Completable arity := by
  cases raised with
  | ended => exact ⟨[.number .zero], _, .number, Nat.zero_le _⟩

end Frame

private theorem Token.mem_of_awaits {token : Token} (awaits : token.endsOperand = false) :
    token ∈ [Token.plus, .minus, .multiply, .divide, .exponent, .openParen] := by
  cases token with
  | plus | minus | multiply | divide | exponent | openParen => decide
  | closeParen | number | atom => cases awaits

/-- Where reading meets the end, the tokens are none or end in one that something is to follow,
and they can be continued. -/
theorem Expr.viable_of_ofTokens {tokens : List Token}
    (failed : Fault.unexpectedEndOfInput.Interrupts (ofTokens arity tokens)) :
    (tokens = [] ∨ ∃ front last, tokens = front ++ [last] ∧ last.endsOperand = false) ∧
      Frame.Completable arity ⟨.sum, 0, tokens⟩ := by
  obtain ⟨called, chain, raised⟩ | ⟨impossible, -⟩ := ofTokens_interrupts failed
  · refine ⟨?_, Frame.completable_of_chain chain raised.completable⟩
    obtain ⟨taken, same, takes⟩ := Frame.exists_taken_of_chain chain
    cases raised with
    | ended =>
      obtain rfl : tokens = taken := by simpa using same
      exact takes.opens rfl
  · cases impossible

/-- Unless an atom reports it, an unexpected end means that more was to come. The tokens are none
or end in an operator, a sign or an opening parenthesis, and they begin an expression that is not
nested too deeply. -/
theorem unexpected_ends_are_incomplete (environment : Environment σ) (tokens : List Token)
    (before after : σ)
    (failed : environment.parse tokens before = (.error .unexpectedEndOfInput, after)) :
    environment.Refuses tokens before .unexpectedEndOfInput ∨
      (tokens = [] ∨ ∃ front last, tokens = front ++ [last] ∧
        last ∈ [Token.plus, .minus, .multiply, .divide, .exponent, .openParen]) ∧
      ∃ continuation expr, Derives environment.arity .sum (tokens ++ continuation) expr ∧
        expr.nesting ≤ Expr.nestingLimit := by
  refine (Environment.parse_interrupted failed (by rintro ⟨⟩)).imp_right fun reading => ?_
  obtain ⟨ending, completable⟩ := Expr.viable_of_ofTokens reading
  refine ⟨?_, completable⟩
  obtain empty | ⟨front, last, same, awaits⟩ := ending
  · exact .inl empty
  · exact .inr ⟨front, last, same, Token.mem_of_awaits awaits⟩

/-- The root of a power of zero whose exponent is a sign and nothing more. -/
theorem unexpected_ends_are_incomplete_under_a_root :
    let environment := Environment.standard .radians
    let tokens : List Token := [.atom "sqrt", .openParen, .number .zero, .exponent, .minus]
    environment.parse tokens () = (.error .unexpectedEndOfInput, ()) ∧
      (environment.Refuses tokens () .unexpectedEndOfInput ∨
        (tokens = [] ∨ ∃ front last, tokens = front ++ [last] ∧
          last ∈ [Token.plus, .minus, .multiply, .divide, .exponent, .openParen]) ∧
        ∃ continuation expr, Derives environment.arity .sum (tokens ++ continuation) expr ∧
          expr.nesting ≤ Expr.nestingLimit) := by
  intro environment tokens
  have failed : environment.parse tokens () = (.error .unexpectedEndOfInput, ()) := rfl
  exact ⟨failed, unexpected_ends_are_incomplete environment tokens () () failed⟩

end PocketCalc
