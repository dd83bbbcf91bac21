import PocketCalc.Proofs.ReaderSoundness

/-! The readers find every derivation that has no more levels than they have left. What
follows a derived list of tokens is arbitrary, except that it must not go on with it: a chain
is then left at exactly the point from which its next link would be read. -/

namespace PocketCalc

variable {arity : String → Option Nat}

namespace Reader

private theorem extend_link {link : Token → Option Link} {left right : Expr} {token : Token}
    {next : Link} {rest after : List Token} (chosen : link token = some next)
    (success : next.read token rest = .ok (right, after)) :
    extend link left (token :: rest) = extend link (next.join left right) after := by
  rw [extend_cons]
  simp only [chosen, success]

private theorem chain_read {first : Reader} {link : Token → Option Link} {left : Expr}
    {input rest : List Token} (success : first.read input = .ok (left, rest)) :
    (first.chain link).read input = extend link left rest := by
  simp only [chain, success]

end Reader

/-- Whether a token after an operand of a sum still belongs to the operand. A number there
is taken for the operator that is missing. -/
def Token.continuesProduct : Token → Bool
  | .exponent | .multiply | .divide | .atom _ | .openParen | .number _ => true
  | _ => false

/-- What may follow an expression that is to be read as one of a category, though its own
chain may still go on. -/
def Category.StopsAt : Category → List Token → Prop
  | .primary, _ => True
  | .power, rest | .signed, rest | .product, rest => rest.head? ≠ some .exponent
  | .sum, rest => ∀ token ∈ rest.head?, token.continuesProduct = false

theorem Category.StopsAt.of_sum {rest : List Token} (stops : Category.sum.StopsAt rest) :
    rest.head? ≠ some .exponent :=
  fun exponent => Bool.noConfusion (stops _ exponent)

theorem Category.StopsAt.sum_cons {token : Token} {rest : List Token}
    (untaken : token.continuesProduct = false) : Category.sum.StopsAt (token :: rest) := by
  rintro _ ⟨⟩
  exact untaken

theorem Category.StopsAt.product_cons {token : Token} {rest : List Token} (other : token ≠ .exponent) :
    Category.product.StopsAt (token :: rest) :=
  fun same => other (Option.some.inj same)

def Category.Closes (rest : List Token) : Prop := rest = [] ∨ ∃ others, rest = .closeParen :: others

namespace Level
variable (arity : String → Option Nat) (inner : Level)

def powers : Reader := powerReader (primaryReader arity inner) inner

def factors : Reader := signedReader (powers arity inner) inner

def products : Reader :=
  (factors arity inner).chain (Reader.multiplicative (factors arity inner) (powers arity inner))

def reader : Category → Reader
  | .primary => primaryReader arity inner
  | .power => powers arity inner
  | .signed => factors arity inner
  | .product => products arity inner
  | .sum => (products arity inner).chain (Reader.additive (products arity inner))

def resume : Category → Expr → List Token → Reading
  | .product => Reader.extend (Reader.multiplicative (factors arity inner) (powers arity inner))
  | .sum => Reader.extend (Reader.additive (products arity inner))
  | _ => fun expr rest => .ok (expr, rest)

variable {arity inner} {rest : List Token} {expr : Expr}

private theorem resume_product (stops : Category.sum.StopsAt rest) :
    resume arity inner .product expr rest = .ok (expr, rest) := by
  dsimp only [resume]
  cases rest with
  | nil => exact Reader.extend_nil _ _
  | cons token others =>
    have untaken := stops token rfl
    rw [Reader.extend_cons]
    cases token <;> first | rfl | cases untaken

private theorem resume_sum (closes : Category.Closes rest) :
    resume arity inner .sum expr rest = .ok (expr, rest) := by
  dsimp only [resume]
  obtain rfl | ⟨others, rfl⟩ := closes
  · exact Reader.extend_nil _ _
  · exact Reader.extend_cons _ _ _ _

private theorem resume_sum_explicit {operator : Operator} {token : Token} {left right : Expr}
    {after : List Token}
    (chosen : Reader.additive (products arity inner) token =
      some (.explicit operator (products arity inner)))
    (operand : (products arity inner).read rest = .ok (right, after)) :
    resume arity inner .sum left (token :: rest) =
      resume arity inner .sum (.binary operator left right) after :=
  Reader.extend_link chosen operand

private theorem resume_product_explicit {operator : Operator} {token : Token} {left right : Expr}
    {after : List Token}
    (chosen : Reader.multiplicative (factors arity inner) (powers arity inner) token =
      some (.explicit operator (factors arity inner)))
    (operand : (factors arity inner).read rest = .ok (right, after)) :
    resume arity inner .product left (token :: rest) =
      resume arity inner .product (.binary operator left right) after :=
  Reader.extend_link chosen operand

theorem multiplicative_adjoins {factor unsigned : Reader} {token : Token}
    (adjoins : token.adjoins = true) :
    Reader.multiplicative factor unsigned token = some (.implied unsigned) := by
  cases token <;> first | rfl | cases adjoins

private theorem resume_product_implied {token : Token} {left right : Expr} {after : List Token}
    (adjoins : token.adjoins = true)
    (operand : (powers arity inner).read (token :: rest) = .ok (right, after)) :
    resume arity inner .product left (token :: rest) =
      resume arity inner .product (.adjoining left right) after :=
  Reader.extend_link (multiplicative_adjoins adjoins) operand

theorem factors_read_eq {first : Token} {input : List Token}
    (begun : Category.power.begins first = true) :
    (factors arity inner).read (first :: input) = (powers arity inner).read (first :: input) := by
  cases first <;> first | rfl | cases begun

private theorem powers_read_eq {input : List Token}
    (base : (primaryReader arity inner).read input = .ok (expr, rest))
    (stops : Category.power.StopsAt rest) : (powers arity inner).read input = .ok (expr, rest) := by
  dsimp only [powers, powerReader]
  rw [base]
  cases rest with
  | nil => rfl
  | cons token others => cases token <;> first | rfl | exact absurd rfl stops

private theorem powers_read_raised {input middle : List Token} {exponent : Expr}
    (base : (primaryReader arity inner).read input = .ok (expr, .exponent :: middle))
    (raised : inner.signed.read middle = .ok (exponent, rest)) :
    (powers arity inner).read input = .ok (.binary .power expr exponent, rest) := by
  simp only [powers, powerReader, base, raised]

theorem primary_read_group {tokens : List Token} (following : List Token)
    (inside : (inner.reader arity .sum).read (tokens ++ .closeParen :: following) =
      inner.resume arity .sum expr (.closeParen :: following)) :
    (primaryReader arity (inner.around arity)).read
        (.openParen :: (tokens ++ .closeParen :: following)) =
      .ok (.group expr, following) := by
  have read : (inner.around arity).sum.read (tokens ++ .closeParen :: following) =
      .ok (expr, .closeParen :: following) := inside.trans (resume_sum (.inr ⟨_, rfl⟩))
  simp only [primaryReader, readPrimary, read]

private theorem primary_read_call {name : String} {count : Nat} {input : List Token}
    {arguments : List Expr} (known : arity name = some count)
    (read : readArguments inner.primary name count input = .ok (arguments, rest)) :
    (primaryReader arity inner).read (.atom name :: input) = .ok (.call name arguments, rest) := by
  simp only [primaryReader, readPrimary, known, read]

theorem readArguments_more {argument : Reader} {name : String} {count : Nat} {token : Token}
    {input middle : List Token} {others : List Expr} (inhabited : token ≠ .closeParen)
    (first : argument.read (.openParen :: token :: input) = .ok (expr, middle))
    (remaining : readArguments argument name count middle = .ok (others, rest)) :
    readArguments argument name (count + 1) (.openParen :: token :: input) =
      .ok (expr :: others, rest) := by
  cases token <;> first
    | exact absurd rfl inhabited
    | simp only [readArguments, first, remaining]

end Level

mutual

theorem Derives.read {category : Category} {tokens rest : List Token} {expr : Expr}
    {levels : Nat} : Derives arity category tokens expr → expr.nesting ≤ levels →
      category.StopsAt rest →
      ((Level.remaining arity levels).reader arity category).read (tokens ++ rest) =
        (Level.remaining arity levels).resume arity category expr rest
  | .product derived, enough, stops =>
    Reader.chain_read ((derived.read enough stops.of_sum).trans (Level.resume_product stops))
  | .plus left right, enough, stops => by
    obtain ⟨first, second⟩ := Nat.max_le.mp enough
    -- The product on the right is finished where the sum may go on, so its own chain ends.
    have operand := (right.read second stops.of_sum).trans (Level.resume_product stops)
    rw [List.append_assoc, List.cons_append]
    refine (left.read first ?_).trans (Level.resume_sum_explicit rfl operand)
    exact .sum_cons rfl
  | .minus left right, enough, stops => by
    obtain ⟨first, second⟩ := Nat.max_le.mp enough
    have operand := (right.read second stops.of_sum).trans (Level.resume_product stops)
    rw [List.append_assoc, List.cons_append]
    refine (left.read first ?_).trans (Level.resume_sum_explicit rfl operand)
    exact .sum_cons rfl
  | .signed derived, enough, stops => Reader.chain_read (derived.read enough stops)
  | .times left right, enough, stops => by
    obtain ⟨first, second⟩ := Nat.max_le.mp enough
    rw [List.append_assoc, List.cons_append]
    refine (left.read first ?_).trans
      (Level.resume_product_explicit rfl (right.read second stops))
    exact .product_cons nofun
  | .over left right, enough, stops => by
    obtain ⟨first, second⟩ := Nat.max_le.mp enough
    rw [List.append_assoc, List.cons_append]
    refine (left.read first ?_).trans
      (Level.resume_product_explicit rfl (right.read second stops))
    exact .product_cons nofun
  | @Derives.adjoining _ _ token _ _ _ left adjoins right, enough, stops => by
    obtain ⟨first, second⟩ := Nat.max_le.mp enough
    rw [List.append_assoc, List.cons_append]
    refine (left.read first ?_).trans ?_
    · exact .product_cons (by rintro rfl; cases adjoins)
    · exact Level.resume_product_implied adjoins (right.read second stops)
  | .power derived, enough, stops => by
    have read := derived.read enough stops
    obtain ⟨first, others, same, begun⟩ := derived.exists_first
    rw [same] at read ⊢
    exact (Level.factors_read_eq begun).trans read
  | .positive derived, enough, stops => by
    obtain ⟨levels, rfl⟩ := Nat.exists_eq_add_one_of_ne_zero (Nat.ne_zero_of_lt enough)
    exact congrArg (Level.withSign .plus) (derived.read (Nat.le_of_succ_le_succ enough) stops)
  | .negative derived, enough, stops => by
    obtain ⟨levels, rfl⟩ := Nat.exists_eq_add_one_of_ne_zero (Nat.ne_zero_of_lt enough)
    exact congrArg (Level.withSign .minus) (derived.read (Nat.le_of_succ_le_succ enough) stops)
  | .primary derived, enough, stops => Level.powers_read_eq (derived.read enough trivial) stops
  | .raised base exponent, enough, stops => by
    obtain ⟨shallow, deep⟩ := Nat.max_le.mp enough
    obtain ⟨levels, rfl⟩ := Nat.exists_eq_add_one_of_ne_zero (Nat.ne_zero_of_lt deep)
    rw [List.append_assoc, List.cons_append]
    exact Level.powers_read_raised (base.read shallow trivial)
      (exponent.read (Nat.le_of_succ_le_succ deep) stops)
  | .number, _, _ => rfl
  | .group derived, enough, _ => by
    obtain ⟨levels, rfl⟩ := Nat.exists_eq_add_one_of_ne_zero (Nat.ne_zero_of_lt enough)
    rw [List.cons_append, List.cons_append, List.append_assoc]
    refine Level.primary_read_group _ (derived.read (Nat.le_of_succ_le_succ enough) ?_)
    exact .sum_cons rfl
  | .call known groups, enough, _ => Level.primary_read_call known (groups.read enough)

theorem DerivesGroups.read {count levels : Nat} {tokens rest : List Token} {exprs : List Expr}
    {name : String} : DerivesGroups arity count tokens exprs →
      Expr.argumentNesting exprs ≤ levels →
      Level.readArguments (Level.remaining arity levels).primary name count (tokens ++ rest) =
        .ok (exprs, rest)
  | .none, _ => rfl
  | .more derived groups, enough => by
    obtain ⟨within, others⟩ := Nat.max_le.mp enough
    -- An argument opens a level for itself and another for its brackets.
    obtain ⟨outer, rfl⟩ := Nat.exists_eq_add_one_of_ne_zero (Nat.ne_zero_of_lt within)
    have deep := Nat.le_of_succ_le_succ within
    obtain ⟨levels, rfl⟩ := Nat.exists_eq_add_one_of_ne_zero (Nat.ne_zero_of_lt deep)
    have argument following := Level.primary_read_group following
      (derived.read (Nat.le_of_succ_le_succ deep) (.sum_cons rfl))
    obtain ⟨first, more, same, begun⟩ := derived.exists_first
    rw [List.cons_append, List.cons_append, List.append_assoc]
    simp only [same] at argument ⊢
    exact Level.readArguments_more (by rintro rfl; cases begun) (argument _) (groups.read others)

end

theorem Derives.read_whole {tokens : List Token} {expr : Expr} {levels : Nat}
    (derived : Derives arity .sum tokens expr) (enough : expr.nesting ≤ levels) :
    (Level.remaining arity (levels + 1)).sum.read tokens = .ok (expr, []) := by
  have read : (Level.remaining arity (levels + 1)).sum.read (tokens ++ []) = _ :=
    derived.read enough nofun
  rw [List.append_nil, Level.resume_sum (.inl rfl)] at read
  exact read

/-- Reading decides the grammar, within the limit of nesting. -/
theorem Expr.ofTokens_eq_ok_iff {tokens : List Token} {expr : Expr} :
    ofTokens arity tokens = .ok expr ↔
      Derives arity .sum tokens expr ∧ expr.nesting ≤ nestingLimit := by
  refine ⟨derives_of_ofTokens, fun ⟨derived, enough⟩ => ?_⟩
  simp only [ofTokens, derived.read_whole enough]

/-- The grammar is unambiguous, since a reader with levels enough for two trees returns both. -/
theorem Derives.unique {tokens : List Token} {expr other : Expr}
    (derived : Derives arity .sum tokens expr) (alternative : Derives arity .sum tokens other) :
    expr = other := by
  have first := derived.read_whole (Nat.le_max_left expr.nesting other.nesting)
  have second := alternative.read_whole (Nat.le_max_right expr.nesting other.nesting)
  rw [first] at second
  cases second
  rfl

end PocketCalc
