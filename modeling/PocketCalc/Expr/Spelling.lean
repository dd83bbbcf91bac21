import PocketCalc.Expr.Nesting

/-! Reading neither adds nor drops a token: an expression that was read is written
with exactly the tokens that were taken. The main statement is about whole lists of
tokens; on the way there every reader is shown to be faithful. -/

namespace PocketCalc

def Reader.Faithful (reader : Reader) : Prop :=
  ∀ ⦃input rest : List Token⦄ ⦃expr : Expr⦄,
    reader.read input = .ok (expr, rest) → input = expr.tokens ++ rest

def Link.Faithful (token : Token) : Link → Prop
  | .explicit operator operand => operator.token = token ∧ operand.Faithful
  | .implied operand => operand.Faithful

theorem Link.Faithful.read {token : Token} {link : Link} (faithful : link.Faithful token)
    {left right : Expr} {rest after : List Token}
    (success : link.read token rest = .ok (right, after)) :
    left.tokens ++ token :: rest = (link.join left right).tokens ++ after := by
  cases link with
  | explicit operator operand =>
    obtain ⟨same, faithful⟩ := faithful
    simp [Link.join, Expr.tokens, same, faithful success]
  | implied operand => simp [Link.join, Expr.tokens, faithful success]

namespace Reader

theorem extend_faithful {link : Token → Option Link}
    (faithful : ∀ token, ∀ next ∈ link token, next.Faithful token)
    {left expr : Expr} {input rest : List Token}
    (success : extend link left input = .ok (expr, rest)) :
    left.tokens ++ input = expr.tokens ++ rest := by
  match input with
  | [] =>
    rw [extend_nil] at success
    cases success
    rfl
  | token :: tokens =>
    rw [extend_cons] at success
    split at success
    next next chosen =>
      split at success
      · cases success
      next shorter =>
        have taken := Link.progress shorter
        rw [(faithful token next chosen).read shorter]
        exact extend_faithful faithful success
    · unfold conclude at success
      split at success <;> cases success
      rfl
termination_by input.length
decreasing_by exact Nat.lt_succ_of_le taken

theorem Faithful.chain {first : Reader} (faithful : first.Faithful)
    {link : Token → Option Link} (links : ∀ token, ∀ next ∈ link token, next.Faithful token) :
    (first.chain link).Faithful := by
  intro input rest expr success
  unfold Reader.chain at success
  dsimp only at success
  split at success
  · cases success
  next shorter => rw [faithful shorter, extend_faithful links success]

theorem Faithful.additive {term : Reader} (faithful : term.Faithful) :
    ∀ token, ∀ next ∈ additive term token, next.Faithful token := by
  intro token next chosen
  cases token <;> cases chosen
  all_goals exact ⟨rfl, faithful⟩

theorem Faithful.multiplicative {factor unsigned : Reader} (signed : factor.Faithful)
    (faithful : unsigned.Faithful) :
    ∀ token, ∀ next ∈ multiplicative factor unsigned token, next.Faithful token := by
  intro token next chosen
  cases token <;> cases chosen
  case divide | multiply => exact ⟨rfl, signed⟩
  case openParen | atom => exact faithful

end Reader

namespace Level

structure Faithful (level : Level) : Prop where
  sum : level.sum.Faithful
  signed : level.signed.Faithful
  primary : level.primary.Faithful

theorem readArguments_faithful {argument : Reader} (faithful : argument.Faithful)
    {name : String} {count : Nat} {input rest : List Token} {arguments : List Expr}
    (success : readArguments argument name count input = .ok (arguments, rest)) :
    input = Expr.allTokens arguments ++ rest := by
  induction count generalizing input arguments with
  | zero =>
    cases success
    rfl
  | succ count ih =>
    unfold readArguments at success
    split at success
    · contradiction
    · cases success
    next same =>
      cases same
      split at success
      · cases success
      next shorter =>
        split at success <;> cases success
        next others => rw [faithful shorter, ih others, Expr.allTokens, List.append_assoc]
    · cases success

variable {inner : Level}

theorem Faithful.primaryReader (faithful : inner.Faithful) (arity : String → Option Nat) :
    (primaryReader arity inner).Faithful := by
  intro input rest expr success
  unfold Level.primaryReader readPrimary at success
  dsimp only at success
  split at success
  · cases success
  · cases success
    rfl
  · split at success
    · cases success
    · split at success <;> cases success
      next arguments => simp [Expr.tokens, readArguments_faithful faithful.primary arguments]
  · split at success <;> cases success
    next shorter => simp [Expr.tokens, faithful.sum shorter]
  · cases success

theorem Faithful.powerReader (faithful : inner.Faithful) {primary : Reader}
    (base : primary.Faithful) : (powerReader primary inner).Faithful := by
  intro input rest expr success
  unfold Level.powerReader at success
  dsimp only at success
  split at success
  · cases success
  next shorter =>
    split at success <;> cases success
    next further =>
      rw [base shorter, faithful.signed further]
      simp [Expr.tokens, Operator.token]
  next shorter =>
    cases success
    exact base shorter

theorem Faithful.withSign (faithful : inner.Faithful) {sign : Sign} {input rest : List Token}
    {expr : Expr} (success : withSign sign (inner.signed.read input) = .ok (expr, rest)) :
    sign.token :: input = expr.tokens ++ rest := by
  unfold Level.withSign at success
  split at success <;> cases success
  next shorter => rw [faithful.signed shorter, Expr.tokens, List.cons_append]

theorem Faithful.signedReader (faithful : inner.Faithful) {power : Reader}
    (unsigned : power.Faithful) : (signedReader power inner).Faithful := by
  intro input rest expr success
  unfold Level.signedReader at success
  dsimp only at success
  split at success
  · exact faithful.withSign success
  · exact faithful.withSign success
  · exact unsigned success

theorem Faithful.around (faithful : inner.Faithful) (arity : String → Option Nat) :
    (inner.around arity).Faithful := by
  have primary := faithful.primaryReader arity
  have power := faithful.powerReader primary
  have signed := faithful.signedReader power
  have product := signed.chain (signed.multiplicative power)
  exact ⟨product.chain product.additive, signed, primary⟩

theorem remaining_faithful (arity : String → Option Nat) (levels : Nat) :
    (remaining arity levels).Faithful := by
  induction levels with
  | zero => exact ⟨nofun, nofun, nofun⟩
  | succ levels ih => exact ih.around arity

end Level

/-- An expression is written with the tokens it was read from. -/
theorem Expr.tokens_eq_of_ofTokens {arity : String → Option Nat} {tokens : List Token}
    {expr : Expr} (success : ofTokens arity tokens = .ok expr) : expr.tokens = tokens := by
  unfold ofTokens at success
  split at success <;> cases success
  next whole => simpa using ((Level.remaining_faithful arity _).sum whole).symm

end PocketCalc
