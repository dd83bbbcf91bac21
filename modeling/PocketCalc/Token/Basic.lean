import PocketCalc.Decimal.Shortest

/-! The tokens of an expression. -/

namespace PocketCalc

inductive Token where
  | plus
  | minus
  | divide
  | multiply
  | exponent
  | openParen
  | closeParen
  | number (value : Binary64)
  | atom (name : String)
deriving DecidableEq

def Token.text : Token → String
  | .plus => "Plus"
  | .minus => "Minus"
  | .divide => "Divide"
  | .multiply => "Multiply"
  | .exponent => "Exponent"
  | .openParen => "OpenParen"
  | .closeParen => "CloseParen"
  | .number value => "'" ++ toString value ++ "'"
  | .atom name => "'" ++ name ++ "'"

end PocketCalc
