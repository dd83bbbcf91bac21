/-! Rounding a quotient of natural numbers to a whole number. Every rounding in
the calculator, binary or decimal, is one of these two, so the neighbours of the
exact quotient are computed in one place only. -/

namespace PocketCalc

/-- What becomes of a quotient that lies halfway between two whole numbers. -/
inductive Tie where
  | toEven
  | up
deriving DecidableEq

namespace Tie

def round (tie : Tie) (numerator denominator : Nat) : Nat :=
  let below := numerator / denominator
  let excess := 2 * (numerator % denominator)
  if excess < denominator then below
  else if denominator < excess then below + 1
  else match tie with
    | .toEven => below + below % 2
    | .up => below + 1

theorem le_round (tie : Tie) (numerator denominator : Nat) :
    numerator / denominator ≤ tie.round numerator denominator := by
  cases tie <;> simp only [round] <;> split <;> (try split) <;> omega

theorem round_le (tie : Tie) (numerator denominator : Nat) :
    tie.round numerator denominator ≤ numerator / denominator + 1 := by
  cases tie <;> simp only [round] <;> split <;> (try split) <;> omega

end Tie
end PocketCalc
