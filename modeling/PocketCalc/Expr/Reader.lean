import PocketCalc.Expr.Basic
import PocketCalc.Fault

/-! Readers of expressions, and the chains of operands they make. A reader always
takes at least one token, which is why a chain ends. -/

namespace PocketCalc

/-- Reading met a fault after some subexpressions were complete. They are kept
in order, because a fault in their values comes before the one met in reading. -/
structure Interruption where
  complete : List Expr
  fault : Fault

namespace Interruption

def here (fault : Fault) : Interruption := ⟨[], fault⟩

def after (earlier : Expr) (interruption : Interruption) : Interruption :=
  ⟨earlier :: interruption.complete, interruption.fault⟩

end Interruption

abbrev Reading := Except Interruption (Expr × List Token)

/-- A way of reading that always takes at least one token. -/
structure Reader where
  read : List Token → Reading
  progress : ∀ {input rest : List Token} {expr : Expr},
    read input = .ok (expr, rest) → rest.length < input.length

/-- How a chain of operands goes on: with an operator before the next operand, or
with the operand itself. -/
inductive Link where
  | explicit (operator : Operator) (operand : Reader)
  | implied (operand : Reader)

namespace Link

def read (link : Link) (token : Token) (rest : List Token) : Reading :=
  match link with
  | .explicit _ operand => operand.read rest
  | .implied operand => operand.read (token :: rest)

def join : Link → Expr → Expr → Expr
  | .explicit operator _ => .binary operator
  | .implied _ => .adjoining

theorem progress {link : Link} {token : Token} {rest after : List Token} {expr : Expr}
    (success : link.read token rest = .ok (expr, after)) : after.length ≤ rest.length := by
  cases link with
  | explicit _ operand => exact Nat.le_of_lt (operand.progress success)
  | implied operand => exact Nat.le_of_lt_succ (operand.progress success)

end Link

namespace Reader

/-- The chain ends before a token, which cannot be a number. -/
def conclude (left : Expr) (token : Token) (rest : List Token) : Reading :=
  match token with
  | .number value => .error ⟨[left], .unexpectedToken (toString value) .operator⟩
  | _ => .ok (left, token :: rest)

def extend (link : Token → Option Link) (left : Expr) : List Token → Reading
  | [] => .ok (left, [])
  | token :: rest =>
    match link token with
    | some next =>
      match _ : next.read token rest with
      | .error interruption => .error (interruption.after left)
      | .ok (right, after) => extend link (next.join left right) after
    | none => conclude left token rest
termination_by input => input.length
decreasing_by exact Nat.lt_succ_of_le (Link.progress (by assumption))

theorem extend_nil (link : Token → Option Link) (left : Expr) :
    extend link left [] = .ok (left, []) := by rw [extend]

theorem extend_cons (link : Token → Option Link) (left : Expr) (token : Token)
    (rest : List Token) :
    extend link left (token :: rest) =
      match link token with
      | some next =>
        match next.read token rest with
        | .error interruption => .error (interruption.after left)
        | .ok (right, after) => extend link (next.join left right) after
      | none => conclude left token rest := by
  rw [extend]
  split
  · split
    next same => rw [same]
    next same => rw [same]
  · rfl

theorem extend_rest_length {link : Token → Option Link} {left expr : Expr}
    {input rest : List Token} (success : extend link left input = .ok (expr, rest)) :
    rest.length ≤ input.length := by
  match input with
  | [] =>
    rw [extend_nil] at success
    cases success
    exact Nat.le_refl _
  | token :: tokens =>
    rw [extend_cons] at success
    split at success
    · split at success
      · cases success
      next shorter =>
        have taken := Link.progress shorter
        exact Nat.le_trans (extend_rest_length success) (Nat.le_succ_of_le taken)
    · unfold conclude at success
      split at success <;> cases success
      exact Nat.le_refl _
termination_by input.length
decreasing_by exact Nat.lt_succ_of_le taken

def chain (first : Reader) (link : Token → Option Link) : Reader where
  read input :=
    match first.read input with
    | .error interruption => .error interruption
    | .ok (left, rest) => extend link left rest
  progress success := by
    split at success
    · cases success
    next shorter => exact Nat.lt_of_le_of_lt (extend_rest_length success) (first.progress shorter)

def additive (term : Reader) : Token → Option Link
  | .plus => some (.explicit .plus term)
  | .minus => some (.explicit .minus term)
  | _ => none

/-- An adjoining factor has no sign, which would be an operator. -/
def multiplicative (factor unsigned : Reader) : Token → Option Link
  | .multiply => some (.explicit .times factor)
  | .divide => some (.explicit .over factor)
  | .atom _ => some (.implied unsigned)
  | .openParen => some (.implied unsigned)
  | _ => none

end Reader

end PocketCalc
