import PocketCalc.Proofs.ReaderSoundness
import Mathlib.Data.List.Infix

/-! What is complete when reading is interrupted. Every subexpression that is kept for its
value is derived by the grammar, and its tokens stand next to each other in the input. -/

namespace PocketCalc

variable {arity : String → Option Nat}

structure Expr.PartOf (arity : String → Option Nat) (input : List Token) (expr : Expr) : Prop where
  derived : ∃ category, Derives arity category expr.tokens expr
  consecutive : expr.tokens <:+: input

theorem Expr.PartOf.trans {expr : Expr} {part whole : List Token} (within : expr.PartOf arity part)
    (consecutive : part <:+: whole) : expr.PartOf arity whole :=
  ⟨within.derived, within.consecutive.trans consecutive⟩

def Interruption.Within (arity : String → Option Nat) (input : List Token)
    (interruption : Interruption) : Prop :=
  ∀ expr ∈ interruption.complete, expr.PartOf arity input

namespace Interruption.Within

variable {input whole : List Token} {interruption : Interruption}

private theorem here (fault : Fault) : (Interruption.here fault).Within arity input := by
  intro expr complete
  cases complete

private theorem single {expr : Expr} {fault : Fault} (within : expr.PartOf arity input) :
    (Interruption.mk [expr] fault).Within arity input := by
  intro other complete
  rwa [List.mem_singleton.mp complete]

theorem trans (within : interruption.Within arity input) (consecutive : input <:+: whole) :
    interruption.Within arity whole :=
  fun expr complete => (within expr complete).trans consecutive

private theorem after {earlier : Expr} (first : earlier.PartOf arity input)
    (within : interruption.Within arity input) :
    (interruption.after earlier).Within arity input := by
  intro expr complete
  obtain rfl | complete := List.mem_cons.mp complete
  · exact first
  · exact within expr complete

end Interruption.Within

private theorem Expr.exists_of_mem_allTokens {token : Token} {exprs : List Expr}
    (member : token ∈ allTokens exprs) : ∃ expr ∈ exprs, token ∈ expr.tokens := by
  induction exprs with
  | nil => cases member
  | cons first others ih =>
    obtain here | there := List.mem_append.mp member
    · exact ⟨first, List.mem_cons_self, here⟩
    · obtain ⟨expr, other, inside⟩ := ih there
      exact ⟨expr, List.mem_cons_of_mem first other, inside⟩

theorem Interruption.Within.mem {input : List Token} {interruption : Interruption}
    (within : interruption.Within arity input) {token : Token}
    (member : token ∈ Expr.allTokens interruption.complete) : token ∈ input := by
  obtain ⟨expr, complete, inside⟩ := Expr.exists_of_mem_allTokens member
  exact (within expr complete).consecutive.subset inside

def Reader.Interrupted (arity : String → Option Nat) (reader : Reader) : Prop :=
  ∀ ⦃input : List Token⦄ ⦃interruption : Interruption⦄,
    reader.read input = .error interruption → interruption.Within arity input

def Link.Interrupted (arity : String → Option Nat) (token : Token) (link : Link) : Prop :=
  ∀ ⦃rest : List Token⦄ ⦃interruption : Interruption⦄,
    link.read token rest = .error interruption → interruption.Within arity (token :: rest)

namespace Reader

private theorem conclude_interrupted {left : Expr} {token : Token} {rest : List Token}
    {interruption : Interruption} (failure : conclude left token rest = .error interruption)
    (derived : ∃ category, Derives arity category left.tokens left) :
    interruption.Within arity (left.tokens ++ token :: rest) := by
  unfold conclude at failure
  split at failure <;> cases failure
  exact .single ⟨derived, (List.prefix_append _ _).isInfix⟩

variable {category : Category} {levels : Nat}

private theorem extend_interrupted {link : Token → Option Link}
    (keeps : Keeps (Expr.Within arity category levels) link)
    (faithful : ∀ token, ∀ next ∈ link token, next.Faithful token)
    (interrupted : ∀ token, ∀ next ∈ link token, next.Interrupted arity token)
    {left : Expr} {input : List Token} {interruption : Interruption}
    (failure : extend link left input = .error interruption)
    (held : left.Within arity category levels) :
    interruption.Within arity (left.tokens ++ input) := by
  match input with
  | [] =>
    rw [extend_nil] at failure
    cases failure
  | token :: tokens =>
    rw [extend_cons] at failure
    split at failure
    next next chosen =>
      split at failure
      next within =>
        cases failure
        refine .after ⟨⟨_, held.derived⟩, (List.prefix_append _ _).isInfix⟩ ?_
        exact (interrupted token next chosen within).trans (List.suffix_append _ _).isInfix
      next shorter =>
        have taken := Link.progress shorter
        rw [(faithful token next chosen).read shorter]
        exact extend_interrupted keeps faithful interrupted failure (keeps chosen shorter held)
    · exact conclude_interrupted failure ⟨_, held.derived⟩
termination_by input.length
decreasing_by exact Nat.lt_succ_of_le taken

private theorem Interrupted.chain {first : Reader} (interrupted : first.Interrupted arity)
    (faithful : first.Faithful) {link : Token → Option Link}
    (begins : ∀ {input rest expr}, first.read input = .ok (expr, rest) →
      expr.Within arity category levels)
    (keeps : Keeps (Expr.Within arity category levels) link)
    (links : ∀ token, ∀ next ∈ link token, next.Faithful token)
    (others : ∀ token, ∀ next ∈ link token, next.Interrupted arity token) :
    (first.chain link).Interrupted arity := by
  intro input interruption failure
  unfold Reader.chain at failure
  dsimp only at failure
  split at failure
  next within =>
    cases failure
    exact interrupted within
  next shorter =>
    rw [faithful shorter]
    exact extend_interrupted keeps links others failure (begins shorter)

private theorem Interrupted.explicit {operand : Reader} (interrupted : operand.Interrupted arity)
    (operator : Operator) (token : Token) :
    (Link.explicit operator operand).Interrupted arity token :=
  fun _ _ failure => (interrupted failure).trans (List.suffix_cons _ _).isInfix

private theorem Interrupted.additive {term : Reader} (interrupted : term.Interrupted arity) :
    ∀ token, ∀ next ∈ additive term token, next.Interrupted arity token := by
  intro token next chosen
  cases token <;> cases chosen
  all_goals exact interrupted.explicit _ _

private theorem Interrupted.multiplicative {factor unsigned : Reader}
    (signed : factor.Interrupted arity) (interrupted : unsigned.Interrupted arity) :
    ∀ token, ∀ next ∈ multiplicative factor unsigned token, next.Interrupted arity token := by
  intro token next chosen
  cases token <;> cases chosen
  case divide | multiply => exact signed.explicit _ _
  case openParen | atom => exact fun _ _ failure => interrupted failure

end Reader

namespace Level

structure Interrupted (arity : String → Option Nat) (level : Level) : Prop where
  sum : level.sum.Interrupted arity
  signed : level.signed.Interrupted arity
  primary : level.primary.Interrupted arity

variable {levels : Nat} {inner : Level}

private theorem readArguments_interrupted (interrupted : inner.primary.Interrupted arity)
    (faithful : inner.primary.Faithful) (sound : inner.primary.Sound arity .primary levels)
    {name : String} {count : Nat} {input : List Token} {interruption : Interruption}
    (failure : readArguments inner.primary name count input = .error interruption) :
    interruption.Within arity input := by
  induction count generalizing input interruption with
  | zero => cases failure
  | succ count ih =>
    unfold readArguments at failure
    split at failure
    · contradiction
    · cases failure
      exact .here _
    next same =>
      cases same
      split at failure
      next within =>
        cases failure
        exact interrupted within
      next shorter =>
        split at failure <;> cases failure
        next others =>
          rw [faithful shorter]
          refine .after ⟨⟨_, (sound shorter).derived⟩, (List.prefix_append _ _).isInfix⟩ ?_
          exact (ih others).trans (List.suffix_append _ _).isInfix
    · cases failure
      exact .here _

private theorem Interrupted.primaryReader (interrupted : inner.Interrupted arity)
    (faithful : inner.Faithful) (sound : inner.Sound arity levels) :
    (primaryReader arity inner).Interrupted arity := by
  intro input interruption failure
  unfold Level.primaryReader readPrimary at failure
  dsimp only at failure
  split at failure
  · cases failure
    exact .here _
  · cases failure
  · split at failure
    · cases failure
      exact .here _
    · split at failure <;> cases failure
      next within =>
        exact (readArguments_interrupted interrupted.primary faithful.primary sound.primary
          within).trans (List.suffix_cons _ _).isInfix
  next rest =>
    have part {expr : Expr} {after : List Token}
        (shorter : inner.sum.read rest = .ok (expr, after)) :
        expr.PartOf arity (.openParen :: rest) := by
      rw [faithful.sum shorter]
      exact ⟨⟨_, (sound.sum shorter).derived⟩, ⟨[.openParen], after, rfl⟩⟩
    split at failure <;> cases failure
    next within => exact (interrupted.sum within).trans (List.suffix_cons _ _).isInfix
    next shorter => exact .single (part shorter)
    next shorter => exact .single (part shorter)
  · cases failure
    exact .here _

private theorem Interrupted.powerReader (interrupted : inner.Interrupted arity) {primary : Reader}
    (base : primary.Interrupted arity) (faithful : primary.Faithful)
    (sound : primary.Sound arity .primary (levels + 1)) :
    (powerReader primary inner).Interrupted arity := by
  intro input interruption failure
  unfold Level.powerReader at failure
  dsimp only at failure
  split at failure
  next within =>
    cases failure
    exact base within
  next left rest shorter =>
    split at failure <;> cases failure
    next within =>
      rw [faithful shorter]
      refine .after ⟨⟨_, (sound shorter).derived⟩, (List.prefix_append _ _).isInfix⟩ ?_
      exact (interrupted.signed within).trans ⟨left.tokens ++ [.exponent], [], by simp⟩
  · cases failure

private theorem Interrupted.withSign (interrupted : inner.Interrupted arity) {sign : Sign}
    {input : List Token} {interruption : Interruption}
    (failure : withSign sign (inner.signed.read input) = .error interruption) (token : Token) :
    interruption.Within arity (token :: input) := by
  unfold Level.withSign at failure
  split at failure <;> cases failure
  next within => exact (interrupted.signed within).trans (List.suffix_cons _ _).isInfix

private theorem Interrupted.signedReader (interrupted : inner.Interrupted arity) {power : Reader}
    (unsigned : power.Interrupted arity) : (signedReader power inner).Interrupted arity := by
  intro input interruption failure
  unfold Level.signedReader at failure
  dsimp only at failure
  split at failure
  · exact interrupted.withSign failure _
  · exact interrupted.withSign failure _
  · exact unsigned failure

private theorem Interrupted.around (interrupted : inner.Interrupted arity)
    (faithful : inner.Faithful)
    (sound : inner.Sound arity levels) : (inner.around arity).Interrupted arity := by
  have faithfulPrimary := faithful.primaryReader arity
  have faithfulPower := faithful.powerReader faithfulPrimary
  have faithfulSigned := faithful.signedReader faithfulPower
  have soundPrimary := sound.primaryReader faithful
  have soundPower := sound.powerReader soundPrimary
  have soundSigned := sound.signedReader soundPower
  have soundProduct := soundSigned.product soundPower faithfulPower
  have primary := interrupted.primaryReader faithful sound
  have power := interrupted.powerReader primary faithfulPrimary soundPrimary
  have signed := interrupted.signedReader power
  have product := signed.chain faithfulSigned
    (fun read => ⟨.signed (soundSigned read).derived, (soundSigned read).nesting_lt⟩)
    (soundSigned.multiplicative soundPower faithfulPower)
    (faithfulSigned.multiplicative faithfulPower) (signed.multiplicative power)
  have faithfulProduct := faithfulSigned.chain (faithfulSigned.multiplicative faithfulPower)
  have sum := product.chain faithfulProduct
    (fun read => ⟨.product (soundProduct read).derived, (soundProduct read).nesting_lt⟩)
    soundProduct.additive faithfulProduct.additive product.additive
  exact ⟨sum, signed, primary⟩

theorem remaining_interrupted (arity : String → Option Nat) (levels : Nat) :
    (remaining arity levels).Interrupted arity := by
  induction levels with
  | zero =>
    refine ⟨?_, ?_, ?_⟩ <;>
    · intro input interruption failure
      cases failure
      exact .here _
  | succ levels ih =>
    exact ih.around (remaining_faithful arity levels) (remaining_sound arity levels)

end Level

/-- Whatever was complete when reading failed is derived and stands in the tokens. -/
theorem Expr.within_of_ofTokens {tokens : List Token} {interruption : Interruption}
    (failure : ofTokens arity tokens = .error interruption) : interruption.Within arity tokens := by
  have part {expr : Expr} {rest : List Token}
      (read : (Level.remaining arity (nestingLimit + 1)).sum.read tokens = .ok (expr, rest)) :
      expr.PartOf arity tokens := by
    rw [(Level.remaining_faithful arity _).sum read]
    exact ⟨⟨_, ((Level.remaining_sound arity _).sum read).derived⟩,
      (List.prefix_append _ _).isInfix⟩
  unfold ofTokens at failure
  split at failure <;> cases failure
  next within => exact (Level.remaining_interrupted arity _).sum within
  next read => exact .single (part read)
  next read => exact .single (part read)

end PocketCalc
