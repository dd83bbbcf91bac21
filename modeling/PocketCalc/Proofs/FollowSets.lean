import PocketCalc.Proofs.CallStacks

/-! What may stand behind an expression once its reader is done with it. A chain takes every link
it can, so a product is left only before a sign or a closing parenthesis, and a sum only before
the latter. The same holds wherever a chain looks for its next link. -/

namespace PocketCalc

variable {arity : String → Option Nat}

def Category.follows : Category → Token → Bool
  | .primary, _ => true
  | .power, token | .signed, token => token != .exponent
  | .product, .plus | .product, .minus | .product, .closeParen => true
  | .product, _ => false
  | .sum, .closeParen => true
  | .sum, _ => false

/-- The end of the tokens may follow as well. -/
def Category.Precedes (category : Category) (rest : List Token) : Prop :=
  ∀ token ∈ rest.head?, category.follows token = true

def Reader.Leaves (category : Category) (reader : Reader) : Prop :=
  ∀ ⦃input rest : List Token⦄ ⦃expr : Expr⦄,
    reader.read input = .ok (expr, rest) → category.Precedes rest

def Link.Leaves (category : Category) (token : Token) (link : Link) : Prop :=
  ∀ ⦃rest after : List Token⦄ ⦃expr : Expr⦄,
    link.read token rest = .ok (expr, after) → category.Precedes after

namespace Reader

variable {category : Category} {link : Token → Option Link}

/-- A chain ends where an operand was left, and only before what is neither a link nor a number. -/
theorem extend_leaves (links : ∀ token, ∀ next ∈ link token, next.Leaves category token)
    {left expr : Expr} {input rest : List Token}
    (success : extend link left input = .ok (expr, rest)) (held : category.Precedes input) :
    category.Precedes rest ∧
      ∀ token ∈ rest.head?, link token = none ∧ ∀ value, token ≠ .number value := by
  match input with
  | [] =>
    rw [extend_nil] at success
    cases success
    exact ⟨held, nofun⟩
  | token :: tokens =>
    rw [extend_cons] at success
    split at success
    next next chosen =>
      split at success
      · cases success
      next shorter =>
        have taken := Link.progress shorter
        exact extend_leaves links success (links token next chosen shorter)
    next unlinked =>
      unfold conclude at success
      split at success <;> cases success
      next notNumber =>
        refine ⟨held, ?_⟩
        rintro _ ⟨⟩
        exact ⟨unlinked, notNumber⟩
termination_by input.length
decreasing_by exact Nat.lt_succ_of_le taken

private theorem Leaves.chain {first : Reader} (leaves : first.Leaves category)
    (links : ∀ token, ∀ next ∈ link token, next.Leaves category token) {whole : Category}
    (stops : ∀ token, category.follows token = true → link token = none →
      (∀ value, token ≠ .number value) → whole.follows token = true) :
    (first.chain link).Leaves whole := by
  intro input rest expr success
  unfold Reader.chain at success
  dsimp only at success
  split at success
  · cases success
  next shorter =>
    obtain ⟨followed, ended⟩ := extend_leaves links success (leaves shorter)
    intro token first
    obtain ⟨unlinked, notNumber⟩ := ended token first
    exact stops token (followed token first) unlinked notNumber

private theorem Leaves.additive {term : Reader} (leaves : term.Leaves category) :
    ∀ token, ∀ next ∈ additive term token, next.Leaves category token := by
  intro token next chosen
  cases token <;> cases chosen
  all_goals exact fun _ _ _ success => leaves success

private theorem Leaves.multiplicative {factor unsigned : Reader} (signed : factor.Leaves .signed)
    (leaves : unsigned.Leaves .power) :
    ∀ token, ∀ next ∈ multiplicative factor unsigned token, next.Leaves .signed token := by
  intro token next chosen
  cases token <;> cases chosen
  case divide | multiply => exact fun _ _ _ success => signed success
  case openParen | atom => exact fun _ _ _ success => leaves success

/-- Where a chain looks for its next link, an operand was left. -/
theorem Reaches.precedes {first : Reader} {input position : List Token}
    (reaches : first.Reaches link input position) (leaves : first.Leaves category)
    (links : ∀ token, ∀ next ∈ link token, next.Leaves category token) :
    category.Precedes position := by
  obtain ⟨operand, rest, success, advances⟩ := reaches
  cases advances with
  | refl => exact leaves success
  | tail _ last =>
    obtain ⟨token, _, next, _, _, chosen, read⟩ := last
    exact links token next chosen read

/-- What a chain has taken, wherever it looks for its next link, is a shorter chain. -/
theorem Reaches.exists_expr {property : Expr → Prop} {first : Reader} {input position : List Token}
    (reaches : first.Reaches link input position) (faithful : first.Faithful)
    (links : ∀ token, ∀ next ∈ link token, next.Faithful token)
    (begins : ∀ {input rest expr}, first.read input = .ok (expr, rest) → property expr)
    (keeps : Keeps property link) :
    ∃ expr : Expr, input = expr.tokens ++ position ∧ property expr := by
  obtain ⟨operand, rest, success, advances⟩ := reaches
  induction advances with
  | refl => exact ⟨operand, faithful success, begins success⟩
  | tail _ last ih =>
    obtain ⟨expr, same, held⟩ := ih
    obtain ⟨token, rest, next, right, rfl, chosen, read⟩ := last
    refine ⟨next.join expr right, ?_, keeps chosen read held⟩
    rw [same, (links token next chosen).read read]

end Reader

namespace Level

variable {inner : Level}

section

-- Of the level below nothing else matters: its sums and primaries end in a parenthesis here.
variable (leaves : inner.signed.Leaves .signed)
include leaves

private theorem powers_leaves (arity : String → Option Nat) :
    (powers arity inner).Leaves .power := by
  intro input rest expr success
  unfold Level.powers powerReader at success
  dsimp only at success
  split at success
  · cases success
  · split at success <;> cases success
    next further => exact leaves further
  next unraised shorter =>
    cases success
    intro token first
    rw [Category.follows, bne_iff_ne]
    rintro rfl
    obtain ⟨others, rfl⟩ := List.head?_eq_some_iff.mp first
    exact unraised _ rfl

private theorem withSign_leaves {sign : Sign} {input rest : List Token} {expr : Expr}
    (success : withSign sign (inner.signed.read input) = .ok (expr, rest)) :
    Category.signed.Precedes rest := by
  unfold Level.withSign at success
  split at success <;> cases success
  next shorter => exact leaves shorter

private theorem factors_leaves (arity : String → Option Nat) :
    (factors arity inner).Leaves .signed := by
  intro input rest expr success
  unfold Level.factors signedReader at success
  dsimp only at success
  split at success
  · exact withSign_leaves leaves success
  · exact withSign_leaves leaves success
  · exact powers_leaves leaves arity success

private theorem products_leaves (arity : String → Option Nat) :
    (products arity inner).Leaves .product := by
  have signed := factors_leaves leaves arity
  apply signed.chain (signed.multiplicative (powers_leaves leaves arity))
  intro token followed unlinked notNumber
  cases token
  case plus | minus | closeParen => rfl
  case divide | multiply | openParen | atom => cases unlinked
  case exponent => cases followed
  case number value => exact absurd rfl (notNumber value)

theorem reader_leaves (arity : String → Option Nat) :
    ∀ category, (reader arity inner category).Leaves category
  | .primary => fun _ _ _ _ _ _ => rfl
  | .power => powers_leaves leaves arity
  | .signed => factors_leaves leaves arity
  | .product => products_leaves leaves arity
  | .sum => by
    have product := products_leaves leaves arity
    apply product.chain product.additive
    intro token followed unlinked notNumber
    cases token
    case closeParen => rfl
    case plus | minus => cases unlinked
    all_goals cases followed

end

theorem remaining_leaves (arity : String → Option Nat) (levels : Nat) :
    (remaining arity levels).signed.Leaves .signed := by
  induction levels with
  | zero => nofun
  | succ levels ih => exact factors_leaves ih arity

theorem Faithful.reader (faithful : inner.Faithful) (arity : String → Option Nat) :
    ∀ category, (reader arity inner category).Faithful
  | .primary => faithful.primaryReader arity
  | .power => faithful.powerReader (faithful.primaryReader arity)
  | .signed => (faithful.around arity).signed
  | .product => by
    have signed := faithful.around arity |>.signed
    exact signed.chain (signed.multiplicative (faithful.powerReader (faithful.primaryReader arity)))
  | .sum => (faithful.around arity).sum

theorem Sound.reader {levels : Nat} (sound : inner.Sound arity levels) (faithful : inner.Faithful) :
    ∀ category, (reader arity inner category).Sound arity category (levels + 1)
  | .primary => sound.primaryReader faithful
  | .power => sound.powerReader (sound.primaryReader faithful)
  | .signed => (sound.around faithful).signed
  | .product => (sound.around faithful).signed.product
      (sound.powerReader (sound.primaryReader faithful)) (faithful.reader arity .power)
  | .sum => (sound.around faithful).sum

end Level

namespace Frame

variable {depth : Nat} {input position : List Token}

/-- What a reader has read: a derived expression that is not too deep, written with the tokens
that were taken and left where it may be. -/
structure Finds (arity : String → Option Nat) (frame : Frame) (expr : Expr) (rest : List Token) :
    Prop where
  tokens : frame.input = expr.tokens ++ rest
  derived : Derives arity frame.category expr.tokens expr
  nesting : expr.nesting ≤ Expr.nestingLimit - frame.depth
  precedes : frame.category.Precedes rest

theorem finds_of_reading {frame : Frame} {expr : Expr} {rest : List Token}
    (success : frame.reading arity = .ok (expr, rest)) : frame.Finds arity expr rest := by
  have faithful := Level.remaining_faithful arity (Expr.nestingLimit - frame.depth)
  have sound := Level.remaining_sound arity (Expr.nestingLimit - frame.depth)
  have leaves := Level.remaining_leaves arity (Expr.nestingLimit - frame.depth)
  obtain ⟨derived, bounded⟩ := sound.reader faithful frame.category success
  exact ⟨faithful.reader arity _ success, derived, Nat.le_of_lt_succ bounded,
    Level.reader_leaves leaves arity _ success⟩

/-- What a sum has taken when it looks for its next term is a sum. -/
theorem TermsReach.exists_sum (reaches : TermsReach arity depth input position) :
    ∃ expr : Expr, input = expr.tokens ++ position ∧
      expr.Within arity .sum (Expr.nestingLimit - depth + 1) ∧
      Category.product.Precedes position := by
  have faithful := (Level.remaining_faithful arity (Expr.nestingLimit - depth)).reader arity .product
  have sound := (Level.remaining_sound arity (Expr.nestingLimit - depth)).reader
    (Level.remaining_faithful arity _) .product
  have below := Level.remaining_leaves arity (Expr.nestingLimit - depth)
  have leaves := Level.products_leaves below arity
  obtain ⟨expr, same, within⟩ := reaches.exists_expr faithful faithful.additive
    (fun success => ⟨.product (sound success).derived, (sound success).nesting_lt⟩) sound.additive
  exact ⟨expr, same, within, reaches.precedes leaves leaves.additive⟩

/-- What a product has taken when it looks for its next factor is a product. -/
theorem FactorsReach.exists_product (reaches : FactorsReach arity depth input position) :
    ∃ expr : Expr, input = expr.tokens ++ position ∧
      expr.Within arity .product (Expr.nestingLimit - depth + 1) ∧
      Category.signed.Precedes position := by
  have level := Level.remaining_faithful arity (Expr.nestingLimit - depth)
  have faithful := level.reader arity .signed
  have faithfulPower := level.reader arity .power
  have sound := (Level.remaining_sound arity (Expr.nestingLimit - depth)).reader level .signed
  have soundPower := (Level.remaining_sound arity (Expr.nestingLimit - depth)).reader level .power
  have below := Level.remaining_leaves arity (Expr.nestingLimit - depth)
  have leaves := Level.factors_leaves below arity
  have leavesPower := Level.powers_leaves below arity
  obtain ⟨expr, same, within⟩ := reaches.exists_expr faithful (faithful.multiplicative faithfulPower)
    (fun success => ⟨.signed (sound success).derived, (sound success).nesting_lt⟩)
    (sound.multiplicative soundPower faithfulPower)
  exact ⟨expr, same, within, reaches.precedes leaves (leaves.multiplicative leavesPower)⟩

/-- Arguments that were read are groups. -/
theorem groups_of_read {name : String} {count : Nat} {rest : List Token} {arguments : List Expr}
    (success : Level.readArguments (Level.within arity depth).primary name count input =
      .ok (arguments, rest)) :
    input = Expr.allTokens arguments ++ rest ∧
      DerivesGroups arity count (Expr.allTokens arguments) arguments ∧
      Expr.argumentNesting arguments ≤ Expr.nestingLimit - depth := by
  have faithful := (Level.remaining_faithful arity (Expr.nestingLimit - depth)).primary
  have sound := (Level.remaining_sound arity (Expr.nestingLimit - depth)).primary
  obtain ⟨groups, bounded⟩ := Level.readArguments_sound faithful sound success
  exact ⟨Level.readArguments_faithful faithful success, groups, Nat.le_of_lt_succ bounded⟩

end Frame
end PocketCalc
