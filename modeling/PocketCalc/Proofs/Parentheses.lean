import PocketCalc.Proofs.Grammar

/-! Parentheses that pair up. The tokens of every derived expression do, so those of a group end
where the parenthesis is closed that the group was opened with. -/

namespace PocketCalc

/-- No parenthesis is closed before it was opened, and none stays open. -/
structure Token.Balanced (tokens : List Token) : Prop where
  closed_le : ∀ before, before <+: tokens → before.count .closeParen ≤ before.count .openParen
  closed_eq : tokens.count .closeParen = tokens.count .openParen

namespace Token

variable {tokens others : List Token}

theorem balanced_nil : Balanced [] where
  closed_le before initial := by
    rw [List.prefix_nil.mp initial]
    exact Nat.le_refl 0
  closed_eq := rfl

theorem Balanced.append (former : Balanced tokens) (latter : Balanced others) :
    Balanced (tokens ++ others) where
  closed_le before initial := by
    obtain within | ⟨part, rfl⟩ :=
      List.prefix_or_prefix_of_prefix initial (List.prefix_append tokens others)
    · exact former.closed_le before within
    · have within := latter.closed_le part ((List.prefix_append_right_inj tokens).mp initial)
      rw [List.count_append, List.count_append, former.closed_eq]
      exact Nat.add_le_add_left within _
  closed_eq := by
    rw [List.count_append, List.count_append, former.closed_eq, latter.closed_eq]

theorem Balanced.cons (later : Balanced tokens) (token : Token) (unopened : token ≠ .openParen)
    (unclosed : token ≠ .closeParen) : Balanced (token :: tokens) where
  closed_le before initial := by
    obtain rfl | ⟨part, rfl, within⟩ := List.prefix_cons_iff.mp initial
    · exact Nat.le_refl 0
    · rw [List.count_cons_of_ne unopened, List.count_cons_of_ne unclosed]
      exact later.closed_le part within
  closed_eq := by
    rw [List.count_cons_of_ne unopened, List.count_cons_of_ne unclosed, later.closed_eq]

/-- What is put into parentheses. -/
theorem Balanced.enclosed (inside : Balanced tokens) :
    Balanced (.openParen :: (tokens ++ [.closeParen])) where
  closed_le before initial := by
    have other : Token.openParen ≠ .closeParen := nofun
    obtain rfl | ⟨part, rfl, within⟩ := List.prefix_cons_iff.mp initial
    · exact Nat.le_refl 0
    · rw [List.count_cons_of_ne other, List.count_cons_self]
      obtain shorter | ⟨rest, rfl⟩ :=
        List.prefix_or_prefix_of_prefix within (List.prefix_append tokens [.closeParen])
      · exact Nat.le_succ_of_le (inside.closed_le part shorter)
      · have last := ((List.prefix_append_right_inj tokens).mp within).sublist.count_le
          Token.closeParen
        rw [List.count_singleton_self] at last
        rw [List.count_append, List.count_append, inside.closed_eq]
        omega
  closed_eq := by
    have other : Token.openParen ≠ .closeParen := nofun
    rw [List.count_cons_of_ne other, List.count_cons_self, List.count_append, List.count_append,
      inside.closed_eq]
    rfl

end Token

variable {arity : String → Option Nat}

mutual

theorem Derives.balanced {category : Category} {tokens : List Token} {expr : Expr} :
    Derives arity category tokens expr → Token.Balanced tokens
  | .product derived | .signed derived | .power derived | .primary derived => derived.balanced
  | .plus left right | .minus left right | .times left right | .over left right
  | .raised left right => left.balanced.append (right.balanced.cons _ nofun nofun)
  | .adjoining left _ right => left.balanced.append right.balanced
  | .positive derived | .negative derived => derived.balanced.cons _ nofun nofun
  | .number => Token.balanced_nil.cons _ nofun nofun
  | .group derived => derived.balanced.enclosed
  | .call _ groups => groups.balanced.cons _ nofun nofun

theorem DerivesGroups.balanced {count : Nat} {tokens : List Token} {exprs : List Expr} :
    DerivesGroups arity count tokens exprs → Token.Balanced tokens
  | .none => Token.balanced_nil
  | .more derived groups => by
    rw [List.append_cons]
    exact derived.balanced.enclosed.append groups.balanced

end

end PocketCalc
