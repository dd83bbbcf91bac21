/-! The two signs, which may stand before an exponent or before an operand. -/

namespace PocketCalc

inductive Sign where
  | plus
  | minus
deriving DecidableEq

namespace Sign

def char : Sign → Char
  | .plus => '+'
  | .minus => '-'

def scan? : List Char → Option Sign × List Char
  | '+' :: rest => (some .plus, rest)
  | '-' :: rest => (some .minus, rest)
  | text => (none, text)

theorem scan?_rest_length (text : List Char) : (scan? text).2.length ≤ text.length := by
  unfold scan?
  split <;> simp

end Sign

end PocketCalc
