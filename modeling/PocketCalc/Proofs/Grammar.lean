import PocketCalc.Expr.Nesting

/-! The grammar of expressions, stated on its own. A derivation relates a list of tokens to
the tree it is written as. The trees keep the parentheses, so a tree is a derivation with its
chain productions left out. How a reader goes about finding one plays no part here. -/

namespace PocketCalc

/-- From loose to tight. A sum is made of products, a product of signed factors, a signed
factor is a power behind its signs, and a power rests on a primary. -/
inductive Category where
  | sum
  | product
  | signed
  | power
  | primary
deriving DecidableEq

def Token.adjoins : Token → Bool
  | .atom _ | .openParen => true
  | _ => false

section
variable (arity : String → Option Nat)

mutual

/-- One constructor for each production. Sums and products are left recursive, powers right
recursive, and a call has exactly as many bracketed groups as its atom takes. -/
inductive Derives : Category → List Token → Expr → Prop
  | product {tokens expr} : Derives .product tokens expr → Derives .sum tokens expr
  | plus {left right first second} : Derives .sum left first → Derives .product right second →
      Derives .sum (left ++ .plus :: right) (.binary .plus first second)
  | minus {left right first second} : Derives .sum left first → Derives .product right second →
      Derives .sum (left ++ .minus :: right) (.binary .minus first second)
  | signed {tokens expr} : Derives .signed tokens expr → Derives .product tokens expr
  | times {left right first second} : Derives .product left first → Derives .signed right second →
      Derives .product (left ++ .multiply :: right) (.binary .times first second)
  | over {left right first second} : Derives .product left first → Derives .signed right second →
      Derives .product (left ++ .divide :: right) (.binary .over first second)
  | adjoining {left token right first second} : Derives .product left first →
      token.adjoins = true → Derives .power (token :: right) second →
      Derives .product (left ++ token :: right) (.adjoining first second)
  | power {tokens expr} : Derives .power tokens expr → Derives .signed tokens expr
  | positive {tokens expr} : Derives .signed tokens expr →
      Derives .signed (.plus :: tokens) (.signed .plus expr)
  | negative {tokens expr} : Derives .signed tokens expr →
      Derives .signed (.minus :: tokens) (.signed .minus expr)
  | primary {tokens expr} : Derives .primary tokens expr → Derives .power tokens expr
  | raised {left right base exponent} : Derives .primary left base →
      Derives .signed right exponent →
      Derives .power (left ++ .exponent :: right) (.binary .power base exponent)
  | number {value} : Derives .primary [.number value] (.number value)
  | group {tokens expr} : Derives .sum tokens expr →
      Derives .primary (.openParen :: tokens ++ [.closeParen]) (.group expr)
  | call {name count tokens arguments} : arity name = some count →
      DerivesGroups count tokens arguments →
      Derives .primary (.atom name :: tokens) (.call name arguments)

inductive DerivesGroups : Nat → List Token → List Expr → Prop
  | none : DerivesGroups 0 [] []
  | more {count tokens expr others exprs} : Derives .sum tokens expr →
      DerivesGroups count others exprs →
      DerivesGroups (count + 1) (.openParen :: tokens ++ .closeParen :: others)
        (.group expr :: exprs)

end
end

namespace Expr

mutual

/-- The levels on the deepest path. A group, a sign and an exponent each open one, and an
argument opens one besides that of its brackets. -/
def nesting : Expr → Nat
  | .number _ => 0
  | .group inner => inner.nesting + 1
  | .signed _ operand => operand.nesting + 1
  | .binary .power base exponent => max base.nesting (exponent.nesting + 1)
  | .binary _ left right => max left.nesting right.nesting
  | .adjoining left right => max left.nesting right.nesting
  | .call _ arguments => argumentNesting arguments

def argumentNesting : List Expr → Nat
  | [] => 0
  | first :: others => max (first.nesting + 1) (argumentNesting others)

end

end Expr

variable {arity : String → Option Nat}

mutual

theorem Derives.tokens_eq {category : Category} {tokens : List Token} {expr : Expr} :
    Derives arity category tokens expr → expr.tokens = tokens
  | .product derived | .signed derived | .power derived | .primary derived => derived.tokens_eq
  | .plus left right | .minus left right | .times left right | .over left right
  | .raised left right => by
    simp [Expr.tokens, left.tokens_eq, right.tokens_eq, Operator.token]
  | .adjoining left _ right => by simp [Expr.tokens, left.tokens_eq, right.tokens_eq]
  | .positive derived | .negative derived => by
    simp [Expr.tokens, derived.tokens_eq, Sign.token]
  | .number => rfl
  | .group derived => by simp [Expr.tokens, derived.tokens_eq]
  | .call _ groups => by simp [Expr.tokens, groups.tokens_eq]

theorem DerivesGroups.tokens_eq {count : Nat} {tokens : List Token} {exprs : List Expr} :
    DerivesGroups arity count tokens exprs → Expr.allTokens exprs = tokens
  | .none => rfl
  | .more derived groups => by
    simp [Expr.allTokens, Expr.tokens, derived.tokens_eq, groups.tokens_eq]

end

/-- What a category may begin with. Only from signed factors up is that a sign. -/
def Category.begins : Category → Token → Bool
  | _, .number _ | _, .atom _ | _, .openParen => true
  | .power, _ | .primary, _ => false
  | _, .plus | _, .minus => true
  | _, _ => false

theorem Derives.exists_first {category : Category} {tokens : List Token} {expr : Expr} :
    Derives arity category tokens expr →
      ∃ first rest, tokens = first :: rest ∧ category.begins first = true
  | .product derived | .signed derived | .power derived | .primary derived => by
    obtain ⟨first, rest, same, begun⟩ := derived.exists_first
    refine ⟨first, rest, same, ?_⟩
    cases first <;> first | rfl | exact begun
  | .plus left _ | .minus left _ | .times left _ | .over left _ | .adjoining left _ _
  | .raised left _ => by
    obtain ⟨first, rest, rfl, begun⟩ := left.exists_first
    refine ⟨first, _, rfl, ?_⟩
    cases first <;> first | rfl | exact begun
  | .positive _ | .negative _ | .number | .group _ | .call _ _ => ⟨_, _, rfl, rfl⟩

def Token.endsOperand : Token → Bool
  | .number _ | .atom _ | .closeParen => true
  | _ => false

private theorem DerivesGroups.eq_nil_or {count : Nat} {tokens : List Token} {exprs : List Expr} :
    DerivesGroups arity count tokens exprs →
      tokens = [] ∨ ∃ before, tokens = before ++ [.closeParen]
  | .none => .inl rfl
  | @DerivesGroups.more _ _ inner _ _ _ _ groups => by
    right
    rcases groups.eq_nil_or with rfl | ⟨before, rfl⟩
    · exact ⟨.openParen :: inner, rfl⟩
    · exact ⟨.openParen :: inner ++ .closeParen :: before, by simp⟩

theorem DerivesGroups.append {count further : Nat} {tokens others : List Token}
    {exprs rest : List Expr} (latter : DerivesGroups arity further others rest) :
    DerivesGroups arity count tokens exprs →
      DerivesGroups arity (count + further) (tokens ++ others) (exprs ++ rest)
  | .none => by
    rw [Nat.zero_add]
    exact latter
  | .more derived groups => by
    rw [Nat.succ_add, List.append_assoc, List.cons_append]
    exact .more derived (latter.append groups)

theorem Derives.exists_last {category : Category} {tokens : List Token} {expr : Expr} :
    Derives arity category tokens expr →
      ∃ before last, tokens = before ++ [last] ∧ last.endsOperand = true
  | .product derived | .signed derived | .power derived | .primary derived => derived.exists_last
  | @Derives.plus _ left _ _ _ _ right | @Derives.minus _ left _ _ _ _ right
  | @Derives.times _ left _ _ _ _ right | @Derives.over _ left _ _ _ _ right
  | @Derives.raised _ left _ _ _ _ right => by
    obtain ⟨before, last, rfl, ends⟩ := right.exists_last
    exact ⟨_, last, (List.append_assoc left (_ :: before) [last]).symm, ends⟩
  | @Derives.adjoining _ left _ _ _ _ _ _ right => by
    obtain ⟨before, last, same, ends⟩ := right.exists_last
    exact ⟨left ++ before, last, by rw [same, List.append_assoc], ends⟩
  | .positive derived | .negative derived => by
    obtain ⟨before, last, rfl, ends⟩ := derived.exists_last
    exact ⟨_ :: before, last, rfl, ends⟩
  | .number => ⟨[], _, rfl, rfl⟩
  | @Derives.group _ inner _ _ => ⟨.openParen :: inner, _, rfl, rfl⟩
  | @Derives.call _ name _ _ _ _ groups => by
    rcases groups.eq_nil_or with rfl | ⟨before, rfl⟩
    · exact ⟨[], _, rfl, rfl⟩
    · exact ⟨.atom name :: before, _, rfl, rfl⟩

theorem Derives.exists_group {tokens rest : List Token} {expr : Expr}
    (derived : Derives arity .primary tokens expr) (begun : tokens = .openParen :: rest) :
    ∃ inner, expr = .group inner ∧ Derives arity .sum inner.tokens inner := by
  cases derived with
  | number | call => cases begun
  | group inside => exact ⟨_, rfl, by rwa [inside.tokens_eq]⟩

end PocketCalc
