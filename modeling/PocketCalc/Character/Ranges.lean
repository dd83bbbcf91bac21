/-! Character classes given by tables of code ranges, as Unicode publishes them. -/

namespace PocketCalc

/-- Whether a code lies in one of the ranges, whose first and last codes both
belong to it. The ranges are in ascending order, so the search stops at the first
one that begins beyond the code. -/
def inRanges (code : Nat) : List (Nat × Nat) → Bool
  | [] => false
  | (first, last) :: later => first ≤ code && (code ≤ last || inRanges code later)

end PocketCalc
