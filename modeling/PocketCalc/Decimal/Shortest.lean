import PocketCalc.Decimal.Nearest
import PocketCalc.Decimal.Text

/-! The decimal numbers that stand for a binary magnitude: rounded to a place, to
a count of digits, or with the fewest digits that still read back. -/

namespace PocketCalc

def firstPlace (numerator denominator : Nat) : Int :=
  if denominator ≤ numerator then
    (Nat.toDigits 10 (numerator / denominator)).length - 1
  else
    -(Nat.toDigits 10 ((denominator - 1) / numerator)).length

namespace Magnitude

def placeNumerator (magnitude : Magnitude) (place : Int) : Nat :=
  magnitude.units * Nat.pow 10 (-place).toNat

def placeDenominator (place : Int) : Nat := unitsPerOne * Nat.pow 10 place.toNat

def toPlace (magnitude : Magnitude) (tie : Tie) (place : Int) : Decimal :=
  ⟨tie.round (magnitude.placeNumerator place) (placeDenominator place), place⟩

/-- The place of the last of `count` digits, the first being significant. -/
def lastPlace (magnitude : Magnitude) (count : Nat) : Int :=
  firstPlace magnitude.units unitsPerOne - count + 1

/-- The exact value rounded to a count of significant digits, a tie going to the
even digit. -/
def significant (magnitude : Magnitude) (count : Nat) : Decimal :=
  magnitude.toPlace .toEven (magnitude.lastPlace count)

def readsBack (magnitude : Magnitude) (decimal : Decimal) : Bool :=
  decimal.nearest? = some magnitude

/-- A decimal number with at most `count` digits that reads back. Of the
magnitude's two neighbours at that precision the nearer is preferred, and the
greater of two equally near. -/
def shortestWithin? (magnitude : Magnitude) (count : Nat) : Option Decimal :=
  let place := magnitude.lastPlace count
  let below := magnitude.placeNumerator place / placeDenominator place
  [magnitude.toPlace .up place, ⟨below, place⟩, ⟨below + 1, place⟩].find? magnitude.readsBack

/-- The exact value, which has no digit beyond the last place of a unit. -/
def exact (magnitude : Magnitude) : Decimal := magnitude.toPlace .up (-1074)

/-- The shortest decimal number that reads back. Seventeen digits are always
enough. -/
def shortest (magnitude : Magnitude) : Decimal :=
  (((List.range' 1 17).findSome? magnitude.shortestWithin?).getD magnitude.exact).trim

end Magnitude

def Binary64.text : Binary64 → List Char
  | .nan => ['N', 'a', 'N']
  | .infinite negative => withMinus negative ['i', 'n', 'f']
  | .finite negative magnitude => withMinus negative magnitude.shortest.positional

instance : ToString Binary64 := ⟨fun value => .ofList value.text⟩

end PocketCalc
