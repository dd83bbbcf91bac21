import PocketCalc.Binary64.Nearest
import PocketCalc.Decimal.Basic

/-! The binary number nearest to a decimal one. -/

namespace PocketCalc
namespace Decimal

/-- The exponent to compute with. A positive coefficient times `10 ^ 400` is beyond
the largest number, and once a negative exponent outweighs the coefficient's bits
by 1100 the value is less than half the smallest one, so no exponent past these
bounds changes the rounded value. -/
def boundedExponent (decimal : Decimal) : Int :=
  max (-(decimal.coefficient.log2 + 1100)) (min 400 decimal.exponent)

def nearest? (decimal : Decimal) : Option Magnitude :=
  let bounded : Decimal := ⟨decimal.coefficient, decimal.boundedExponent⟩
  Magnitude.nearest? (bounded.numerator * Magnitude.unitsPerOne) bounded.denominator

end Decimal

def Binary64.ofDecimal (negative : Bool) (decimal : Decimal) : Binary64 :=
  .ofMagnitude? negative decimal.nearest?

end PocketCalc
