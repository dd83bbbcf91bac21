import PocketCalc.Sign
import PocketCalc.Token.Basic

/-! Expressions as trees. A tree remembers its parentheses, so it is written with
exactly one list of tokens. -/

namespace PocketCalc

inductive Operator where
  | plus
  | minus
  | times
  | over
  | power
deriving DecidableEq

namespace Operator

def symbol : Operator → String
  | .plus => "+"
  | .minus => "-"
  | .times => "*"
  | .over => "/"
  | .power => "^"

def token : Operator → Token
  | .plus => .plus
  | .minus => .minus
  | .times => .multiply
  | .over => .divide
  | .power => .exponent

end Operator

def Sign.token : Sign → Token
  | .plus => .plus
  | .minus => .minus

/-- An expression. Two factors may adjoin without an operator, which multiplies
them, and each argument of a call is a group. -/
inductive Expr where
  | number (value : Binary64)
  | group (inner : Expr)
  | signed (sign : Sign) (operand : Expr)
  | binary (operator : Operator) (left right : Expr)
  | adjoining (left right : Expr)
  | call (name : String) (arguments : List Expr)

namespace Expr

mutual

def tokens : Expr → List Token
  | .number value => [.number value]
  | .group inner => .openParen :: inner.tokens ++ [.closeParen]
  | .signed sign operand => sign.token :: operand.tokens
  | .binary operator left right => left.tokens ++ operator.token :: right.tokens
  | .adjoining left right => left.tokens ++ right.tokens
  | .call name arguments => .atom name :: allTokens arguments

def allTokens : List Expr → List Token
  | [] => []
  | first :: others => first.tokens ++ allTokens others

end

mutual

def width : Expr → Nat
  | .number _ => 1
  | .group inner => inner.width + 2
  | .signed _ operand => operand.width + 1
  | .binary _ left right => left.width + right.width + 1
  | .adjoining left right => left.width + right.width
  | .call _ arguments => totalWidth arguments + 1

def totalWidth : List Expr → Nat
  | [] => 0
  | first :: others => first.width + totalWidth others

end

mutual

theorem length_tokens : ∀ expr : Expr, expr.tokens.length = expr.width
  | .number _ => by simp [tokens, width]
  | .group inner => by simp [tokens, width, length_tokens inner]
  | .signed _ operand => by simp [tokens, width, length_tokens operand]
  | .binary _ left right => by
    simp only [tokens, width, List.length_append, List.length_cons, length_tokens left,
      length_tokens right]
    omega
  | .adjoining left right => by simp [tokens, width, length_tokens left, length_tokens right]
  | .call _ arguments => by simp [tokens, width, length_allTokens arguments]

theorem length_allTokens : ∀ exprs : List Expr, (allTokens exprs).length = totalWidth exprs
  | [] => rfl
  | first :: others => by
    simp [allTokens, totalWidth, length_tokens first, length_allTokens others]

end

end Expr
end PocketCalc
