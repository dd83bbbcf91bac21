import PocketCalc.Binary64.Basic

/-! Powers and the circular functions, for which the format names no exact
result. The machine computes them; only bit patterns cross over. -/

namespace PocketCalc
namespace Binary64

def toMachine (value : Binary64) : Float := .ofBits value.toBits

def ofMachine (value : Float) : Binary64 := .ofBits value.toBits

def pow (base exponent : Binary64) : Binary64 :=
  ofMachine (base.toMachine.pow exponent.toMachine)

def sin (angle : Binary64) : Binary64 := ofMachine angle.toMachine.sin

def cos (angle : Binary64) : Binary64 := ofMachine angle.toMachine.cos

def tan (angle : Binary64) : Binary64 := ofMachine angle.toMachine.tan

/-- The number nearest to the ratio of a circle's circumference to its diameter. -/
def pi : Binary64 := .ofBits 0x400921fb54442d18

/-- The number nearest to the base of the natural logarithm. -/
def e : Binary64 := .ofBits 0x4005bf0a8b145769

end Binary64
end PocketCalc
