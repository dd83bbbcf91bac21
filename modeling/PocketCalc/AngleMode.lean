import PocketCalc.Binary64.Arithmetic
import PocketCalc.Binary64.Elementary
import PocketCalc.Decimal.Nearest

/-! The unit in which the circular functions take their angles. -/

namespace PocketCalc

inductive AngleMode where
  | degrees
  | radians
deriving DecidableEq

namespace AngleMode

/-- An angle of this mode in radians. Degrees are multiplied by pi first and then
divided by 180, each step rounding. -/
def toRadians (mode : AngleMode) (angle : Binary64) : Binary64 :=
  match mode with
  | .degrees => (angle.mul .pi).div (.ofDecimal false ⟨180, 0⟩)
  | .radians => angle

def toggle : AngleMode → AngleMode
  | .degrees => .radians
  | .radians => .degrees

def text : AngleMode → String
  | .degrees => "DEG"
  | .radians => "RAD"

def ofName? (name : String) : Option AngleMode :=
  match name.map Char.toLower with
  | "deg" | "degree" | "degrees" => some .degrees
  | "rad" | "radian" | "radians" => some .radians
  | _ => none

def read (name : String) : Except String AngleMode :=
  match ofName? name with
  | some mode => .ok mode
  | none => .error ("unknown angle mode '" ++ name ++ "'")

end AngleMode
end PocketCalc
