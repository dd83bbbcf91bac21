import PocketCalc.AngleMode

/-! The names the calculator knows: two constants and four functions of one
argument. -/

namespace PocketCalc

inductive Function where
  | sin
  | cos
  | tan
  | sqrt
deriving DecidableEq

namespace Function

def all : List Function := [.sin, .cos, .tan, .sqrt]

def name : Function → String
  | .sin => "sin"
  | .cos => "cos"
  | .tan => "tan"
  | .sqrt => "sqrt"

def ofName? (name : String) : Option Function := all.find? (·.name == name)

/-- The value at an argument, which is an angle of the mode for all but the root. -/
def apply (function : Function) (mode : AngleMode) (argument : Binary64) : Binary64 :=
  match function with
  | .sin => (mode.toRadians argument).sin
  | .cos => (mode.toRadians argument).cos
  | .tan => (mode.toRadians argument).tan
  | .sqrt => argument.sqrt

end Function

def constant? : String → Option Binary64
  | "pi" | "π" => some .pi
  | "e" => some .e
  | _ => none

end PocketCalc
