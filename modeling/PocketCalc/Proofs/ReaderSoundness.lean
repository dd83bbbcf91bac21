import PocketCalc.Expr.Spelling
import PocketCalc.Proofs.Grammar

/-! What the readers return is derived by the grammar, within the levels they have left. The
tokens themselves are accounted for by faithfulness, so only the shape of the tree remains. -/

namespace PocketCalc

variable {arity : String → Option Nat}

/-- A tree of a category for which a number of levels, the outermost included, is enough. -/
structure Expr.Within (arity : String → Option Nat) (category : Category) (levels : Nat)
    (expr : Expr) : Prop where
  derived : Derives arity category expr.tokens expr
  nesting_lt : expr.nesting < levels

def Reader.Sound (arity : String → Option Nat) (category : Category) (levels : Nat)
    (reader : Reader) : Prop :=
  ∀ ⦃input rest : List Token⦄ ⦃expr : Expr⦄,
    reader.read input = .ok (expr, rest) → expr.Within arity category levels

namespace Reader

def Keeps (property : Expr → Prop) (link : Token → Option Link) : Prop :=
  ∀ ⦃token next rest right after left⦄, link token = some next →
    next.read token rest = .ok (right, after) → property left → property (next.join left right)

private theorem extend_preserves {property : Expr → Prop} {link : Token → Option Link}
    (keeps : Keeps property link) {left expr : Expr} {input rest : List Token}
    (success : extend link left input = .ok (expr, rest)) (held : property left) :
    property expr := by
  match input with
  | [] =>
    rw [extend_nil] at success
    cases success
    exact held
  | token :: tokens =>
    rw [extend_cons] at success
    split at success
    next next chosen =>
      split at success
      · cases success
      next shorter =>
        have taken := Link.progress shorter
        exact extend_preserves keeps success (keeps chosen shorter held)
    · unfold conclude at success
      split at success <;> cases success
      exact held
termination_by input.length
decreasing_by exact Nat.lt_succ_of_le taken

private theorem chain_preserves {property : Expr → Prop} {first : Reader}
    {link : Token → Option Link}
    (begins : ∀ {input rest expr}, first.read input = .ok (expr, rest) → property expr)
    (keeps : Keeps property link)
    {input rest : List Token} {expr : Expr}
    (success : (first.chain link).read input = .ok (expr, rest)) : property expr := by
  unfold chain at success
  dsimp only at success
  split at success
  · cases success
  next shorter => exact extend_preserves keeps success (begins shorter)

variable {levels : Nat}

theorem Sound.additive {product : Reader} (sound : product.Sound arity .product levels) :
    Keeps (Expr.Within arity .sum levels) (additive product) := by
  intro token next rest right after left chosen shorter held
  cases token <;> cases chosen
  · obtain ⟨derived, bounded⟩ := sound shorter
    exact ⟨.plus held.derived derived, Nat.max_lt.mpr ⟨held.nesting_lt, bounded⟩⟩
  · obtain ⟨derived, bounded⟩ := sound shorter
    exact ⟨.minus held.derived derived, Nat.max_lt.mpr ⟨held.nesting_lt, bounded⟩⟩

private theorem Sound.sum {product : Reader} (sound : product.Sound arity .product levels) :
    (product.chain (Reader.additive product)).Sound arity .sum levels := by
  intro input rest expr success
  refine chain_preserves ?_ sound.additive success
  intro input rest expr shorter
  obtain ⟨derived, bounded⟩ := sound shorter
  exact ⟨.product derived, bounded⟩

/-- An adjoining factor begins with the token it was chosen by, because reading it takes
at least one token and keeps them all. -/
theorem Faithful.exists_tokens {reader : Reader} (faithful : reader.Faithful) {token : Token}
    {input rest : List Token} {expr : Expr}
    (success : reader.read (token :: input) = .ok (expr, rest)) :
    ∃ others, expr.tokens = token :: others := by
  have whole := faithful success
  have shorter := reader.progress success
  cases same : expr.tokens with
  | nil =>
    rw [same, List.nil_append] at whole
    simp [whole] at shorter
  | cons first others =>
    rw [same, List.cons_append, List.cons.injEq] at whole
    exact ⟨others, by rw [whole.1]⟩

theorem Sound.multiplicative {signed power : Reader} (sound : signed.Sound arity .signed levels)
    (unsigned : power.Sound arity .power levels) (faithful : power.Faithful) :
    Keeps (Expr.Within arity .product levels) (multiplicative signed power) := by
  intro token next rest right after left chosen shorter held
  have adjoin (adjoins : token.adjoins = true)
      (read : power.read (token :: rest) = .ok (right, after)) :
      (Expr.adjoining left right).Within arity .product levels := by
    obtain ⟨derived, bounded⟩ := unsigned read
    obtain ⟨others, same⟩ := faithful.exists_tokens read
    refine ⟨?_, Nat.max_lt.mpr ⟨held.nesting_lt, bounded⟩⟩
    rw [same] at derived
    simpa [Expr.tokens, same] using Derives.adjoining held.derived adjoins derived
  cases token <;> cases chosen
  · obtain ⟨derived, bounded⟩ := sound shorter
    exact ⟨.over held.derived derived, Nat.max_lt.mpr ⟨held.nesting_lt, bounded⟩⟩
  · obtain ⟨derived, bounded⟩ := sound shorter
    exact ⟨.times held.derived derived, Nat.max_lt.mpr ⟨held.nesting_lt, bounded⟩⟩
  · exact adjoin rfl shorter
  · exact adjoin rfl shorter

theorem Sound.product {signed power : Reader} (sound : signed.Sound arity .signed levels)
    (unsigned : power.Sound arity .power levels) (faithful : power.Faithful) :
    (signed.chain (Reader.multiplicative signed power)).Sound arity .product levels := by
  intro input rest expr success
  refine chain_preserves ?_ (sound.multiplicative unsigned faithful) success
  intro input rest expr shorter
  obtain ⟨derived, bounded⟩ := sound shorter
  exact ⟨.signed derived, bounded⟩

end Reader

namespace Level

structure Sound (arity : String → Option Nat) (levels : Nat) (level : Level) : Prop where
  sum : level.sum.Sound arity .sum levels
  signed : level.signed.Sound arity .signed levels
  primary : level.primary.Sound arity .primary levels

variable {levels : Nat} {inner : Level}

/-- An argument that was read is a group, because it was read from a parenthesis. -/
theorem readArguments_sound (faithful : inner.primary.Faithful)
    (sound : inner.primary.Sound arity .primary levels) {name : String} {count : Nat}
    {input rest : List Token} {arguments : List Expr}
    (success : readArguments inner.primary name count input = .ok (arguments, rest)) :
    DerivesGroups arity count (Expr.allTokens arguments) arguments ∧
      Expr.argumentNesting arguments < levels + 1 := by
  induction count generalizing input arguments with
  | zero =>
    cases success
    exact ⟨.none, Nat.zero_lt_succ _⟩
  | succ count ih =>
    unfold readArguments at success
    split at success
    · contradiction
    · cases success
    next same =>
      cases same
      split at success
      · cases success
      next first _ shorter =>
        split at success <;> cases success
        next others =>
          obtain ⟨groups, deep⟩ := ih others
          obtain ⟨derived, bounded⟩ := sound shorter
          obtain ⟨_, begun⟩ := faithful.exists_tokens shorter
          obtain ⟨expr, rfl, inside⟩ := derived.exists_group begun
          refine ⟨?_, Nat.max_lt.mpr ⟨Nat.succ_lt_succ bounded, deep⟩⟩
          simpa [Expr.allTokens, Expr.tokens] using DerivesGroups.more inside groups
    · cases success

theorem Sound.primaryReader (sound : inner.Sound arity levels) (faithful : inner.Faithful) :
    (primaryReader arity inner).Sound arity .primary (levels + 1) := by
  intro input rest expr success
  unfold Level.primaryReader readPrimary at success
  dsimp only at success
  split at success
  · cases success
  · cases success
    exact ⟨.number, Nat.zero_lt_succ _⟩
  next name _ =>
    split at success
    · cases success
    next known =>
      split at success <;> cases success
      next arguments =>
        obtain ⟨groups, deep⟩ := readArguments_sound faithful.primary sound.primary arguments
        exact ⟨.call known groups, deep⟩
  · split at success <;> cases success
    next shorter =>
      obtain ⟨derived, bounded⟩ := sound.sum shorter
      exact ⟨.group derived, Nat.succ_lt_succ bounded⟩
  · cases success

theorem Sound.powerReader (sound : inner.Sound arity levels) {primary : Reader}
    (base : primary.Sound arity .primary (levels + 1)) :
    (powerReader primary inner).Sound arity .power (levels + 1) := by
  intro input rest expr success
  unfold Level.powerReader at success
  dsimp only at success
  split at success
  · cases success
  next shorter =>
    obtain ⟨derived, bounded⟩ := base shorter
    split at success <;> cases success
    next further =>
      obtain ⟨exponent, deep⟩ := sound.signed further
      exact ⟨.raised derived exponent, Nat.max_lt.mpr ⟨bounded, Nat.succ_lt_succ deep⟩⟩
  next shorter =>
    cases success
    obtain ⟨derived, bounded⟩ := base shorter
    exact ⟨.primary derived, bounded⟩

private theorem Sound.withSign (sound : inner.Sound arity levels) {sign : Sign}
    {input rest : List Token} {expr : Expr}
    (success : withSign sign (inner.signed.read input) = .ok (expr, rest)) :
    expr.Within arity .signed (levels + 1) := by
  unfold Level.withSign at success
  split at success <;> cases success
  next shorter =>
    obtain ⟨derived, bounded⟩ := sound.signed shorter
    cases sign
    · exact ⟨.positive derived, Nat.succ_lt_succ bounded⟩
    · exact ⟨.negative derived, Nat.succ_lt_succ bounded⟩

theorem Sound.signedReader (sound : inner.Sound arity levels) {power : Reader}
    (unsigned : power.Sound arity .power (levels + 1)) :
    (signedReader power inner).Sound arity .signed (levels + 1) := by
  intro input rest expr success
  unfold Level.signedReader at success
  dsimp only at success
  split at success
  · exact sound.withSign success
  · exact sound.withSign success
  · obtain ⟨derived, bounded⟩ := unsigned success
    exact ⟨.power derived, bounded⟩

theorem Sound.around (sound : inner.Sound arity levels) (faithful : inner.Faithful) :
    (inner.around arity).Sound arity (levels + 1) := by
  have primary := sound.primaryReader faithful
  have power := sound.powerReader primary
  have signed := sound.signedReader power
  have faithfulPower := faithful.powerReader (faithful.primaryReader arity)
  exact ⟨(signed.product power faithfulPower).sum, signed, primary⟩

theorem remaining_sound (arity : String → Option Nat) (levels : Nat) :
    (remaining arity levels).Sound arity levels := by
  induction levels with
  | zero => exact ⟨nofun, nofun, nofun⟩
  | succ levels ih => exact ih.around (remaining_faithful arity levels)

end Level

theorem Expr.derives_of_ofTokens {tokens : List Token} {expr : Expr}
    (success : ofTokens arity tokens = .ok expr) :
    Derives arity .sum tokens expr ∧ expr.nesting ≤ nestingLimit := by
  have same := tokens_eq_of_ofTokens success
  unfold ofTokens at success
  split at success <;> cases success
  next whole =>
    obtain ⟨derived, bounded⟩ := (Level.remaining_sound arity _).sum whole
    rw [same] at derived
    exact ⟨derived, Nat.le_of_lt_succ bounded⟩

end PocketCalc
