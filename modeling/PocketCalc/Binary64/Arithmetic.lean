import PocketCalc.Binary64.Nearest

/-! The four operations and the square root: the exact result of finite operands
rounded once. Infinities and non-numbers follow the usual rules of the format,
which also fix the sign of every zero. -/

namespace PocketCalc
namespace Binary64

def neg : Binary64 → Binary64
  | .nan => .nan
  | .infinite negative => .infinite (!negative)
  | .finite negative magnitude => .finite (!negative) magnitude

/-- An exact sum of zero is negative only if both operands are. -/
def add : Binary64 → Binary64 → Binary64
  | .nan, _ => .nan
  | _, .nan => .nan
  | .infinite left, .infinite right => if left = right then .infinite left else .nan
  | .infinite left, .finite _ _ => .infinite left
  | .finite _ _, .infinite right => .infinite right
  | .finite left leftMagnitude, .finite right rightMagnitude =>
    let sum := signedUnits left leftMagnitude + signedUnits right rightMagnitude
    let negative := if sum = 0 then left && right else decide (sum < 0)
    nearest negative sum.natAbs 1

def sub (left right : Binary64) : Binary64 := left.add right.neg

def mul : Binary64 → Binary64 → Binary64
  | .nan, _ => .nan
  | _, .nan => .nan
  | .infinite left, .infinite right => .infinite (left != right)
  | .infinite left, .finite right magnitude =>
    if magnitude.significand = 0 then .nan else .infinite (left != right)
  | .finite left magnitude, .infinite right =>
    if magnitude.significand = 0 then .nan else .infinite (left != right)
  | .finite left leftMagnitude, .finite right rightMagnitude =>
    nearest (left != right) (leftMagnitude.units * rightMagnitude.units) Magnitude.unitsPerOne

def div : Binary64 → Binary64 → Binary64
  | .nan, _ => .nan
  | _, .nan => .nan
  | .infinite _, .infinite _ => .nan
  | .infinite left, .finite right _ => .infinite (left != right)
  | .finite left _, .infinite right => .finite (left != right) .zero
  | .finite left leftMagnitude, .finite right rightMagnitude =>
    if rightMagnitude.significand = 0 then
      if leftMagnitude.significand = 0 then .nan else .infinite (left != right)
    else
      nearest (left != right) (leftMagnitude.units * Magnitude.unitsPerOne) rightMagnitude.units

/-- The largest number whose square is at most the given one. -/
def wholeRoot (square : Nat) : Nat :=
  if square = 0 then 0
  else
    let even := 2 * wholeRoot (square / 4)
    if (even + 1) * (even + 1) ≤ square then even + 1 else even
termination_by square

/-- The square root. No root of a positive number is below `2 ^ 537` units, so
rounding depends only on its whole units and on whether anything is left over,
for which half a unit stands. -/
def sqrt : Binary64 → Binary64
  | .nan => .nan
  | .infinite negative => if negative then .nan else .infinite false
  | .finite negative magnitude =>
    if magnitude.significand = 0 then .finite negative magnitude
    else if negative then .nan
    else
      let square := magnitude.units * Magnitude.unitsPerOne
      let root := wholeRoot square
      nearest false (if root * root = square then 2 * root else 2 * root + 1) 2

end Binary64
end PocketCalc
