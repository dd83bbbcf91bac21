import PocketCalc.Decimal.Shortest

/-! The form in which results are kept, and the text that stands for a missing one. -/

namespace PocketCalc

def errorText : String := "Error"

/-- How many significant digits are kept: few enough to hide the last bits that the
circular functions get wrong. -/
def significantDigits : Nat := 14

/-- The places of a first digit that are written positionally, from the millionths
to the twenty-first digit before the point. -/
def isPositional (place : Int) : Bool := -6 ≤ place && place < 21

/-- A value to its significant digits without insignificant zeros. Zero has no sign. -/
def canonical : Binary64 → String
  | .finite negative magnitude =>
    let decimal := (magnitude.significant significantDigits).trim
    let text :=
      if isPositional decimal.leadingPlace then decimal.positional else decimal.scientific
    .ofList (withMinus (negative && decimal.coefficient != 0) text)
  | _ => errorText

end PocketCalc
