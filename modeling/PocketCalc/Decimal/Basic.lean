/-! Exact decimal numbers: a whole coefficient times a power of ten. Numerals are
read into them and written from them, so the step between decimal and binary is
always a single rounding of an exact value. -/

namespace PocketCalc

/-- The number `coefficient * 10 ^ exponent`. -/
structure Decimal where
  coefficient : Nat
  exponent : Int
deriving DecidableEq

namespace Decimal

def numerator (decimal : Decimal) : Nat :=
  decimal.coefficient * Nat.pow 10 decimal.exponent.toNat

def denominator (decimal : Decimal) : Nat := Nat.pow 10 (-decimal.exponent).toNat

/-- The coefficient's digits; zero has one. -/
def digits (decimal : Decimal) : List Char := Nat.toDigits 10 decimal.coefficient

/-- The place of the first digit, which is the number's order of magnitude. -/
def leadingPlace (decimal : Decimal) : Int :=
  decimal.exponent + decimal.digits.length - 1

def trimmed (coefficient : Nat) (exponent : Int) : Decimal :=
  if coefficient = 0 then ⟨0, 0⟩
  else if coefficient % 10 = 0 then trimmed (coefficient / 10) (exponent + 1)
  else ⟨coefficient, exponent⟩
termination_by coefficient

def trim (decimal : Decimal) : Decimal := trimmed decimal.coefficient decimal.exponent

end Decimal
end PocketCalc
