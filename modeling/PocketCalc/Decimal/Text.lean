import PocketCalc.Decimal.Basic

/-! The two written forms of a decimal number. Both show every digit of the
coefficient, so a trimmed number is written without insignificant zeros. -/

namespace PocketCalc
namespace Decimal

/-- All the digits, those that stand for the power of ten included, with a point
if some of them are a fraction. A fraction has a whole part, be it zero. -/
def positional (decimal : Decimal) : List Char :=
  if 0 ≤ decimal.exponent then
    Nat.toDigits 10 decimal.numerator
  else
    let fraction := Nat.toDigits 10 (decimal.coefficient % decimal.denominator)
    Nat.toDigits 10 (decimal.coefficient / decimal.denominator) ++ '.' ::
      (List.replicate ((-decimal.exponent).toNat - fraction.length) '0' ++ fraction)

/-- One digit before the point, and the order of magnitude with its sign. -/
def scientific (decimal : Decimal) : List Char :=
  let place := decimal.leadingPlace
  mantissa decimal.digits ++
    'e' :: (if place < 0 then '-' else '+') :: Nat.toDigits 10 place.natAbs
where
  mantissa : List Char → List Char
    | first :: second :: rest => first :: '.' :: second :: rest
    | digits => digits

end Decimal

def withMinus (negative : Bool) (text : List Char) : List Char :=
  if negative then '-' :: text else text

end PocketCalc
