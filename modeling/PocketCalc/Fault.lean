/-! Everything that can be wrong with an expression, and how it is reported. -/

namespace PocketCalc

inductive Quotation where
  | unary (name argument : String)
  | binary (operator left right : String)
deriving DecidableEq

def Quotation.text : Quotation → String
  | .unary name argument => name ++ "(" ++ argument ++ ")"
  | .binary operator left right => left ++ " " ++ operator ++ " " ++ right

inductive Expectation where
  | number
  | operator
  | closeParen
deriving DecidableEq

def Expectation.text : Expectation → String
  | .number => "number"
  | .operator => "operator"
  | .closeParen => ")"

inductive Fault where
  | divideByZero
  | invalidNumber (text : String)
  | invalidOperator (character : Char)
  | nestingTooDeep
  | noFunctionArgument (name : String)
  | undefined (calculation : Quotation)
  | unexpectedEndOfInput
  | unexpectedToken (found : String) (expected : Expectation)
  | unknownAtom (name : String)
  | unmatchedParenthesis
  | unrecognizedToken (text : String)
  | wouldOverflow (calculation : Quotation)
deriving DecidableEq

def Fault.message : Fault → String
  | .divideByZero => "attempted to divide by zero"
  | .invalidNumber text => "invalid number: " ++ text
  | .invalidOperator character => "invalid operator: " ++ String.singleton character
  | .nestingTooDeep => "expression is nested too deeply"
  | .noFunctionArgument name => "no bracketed argument for function '" ++ name ++ "'"
  | .undefined calculation => "expression '" ++ calculation.text ++ "' is undefined"
  | .unexpectedEndOfInput => "unexpected end of input"
  | .unexpectedToken found expected =>
    "expected " ++ expected.text ++ " token, got " ++ found ++ " instead"
  | .unknownAtom name => "unknown constant or function '" ++ name ++ "'"
  | .unmatchedParenthesis => "unmatched parenthesis"
  | .unrecognizedToken text => "unrecognized token: " ++ text
  | .wouldOverflow calculation => "expression '" ++ calculation.text ++ "' would overflow"

end PocketCalc
