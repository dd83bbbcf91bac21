import PocketCalc.Decimal.Shortest
import PocketCalc.Environment.Basic
import PocketCalc.Function

/-! The calculator's own environment. -/

namespace PocketCalc
namespace Environment

def standardArity (name : String) : Option Nat :=
  match constant? name with
  | some _ => some 0
  | none => (Function.ofName? name).map fun _ => 1

/-- The value a name has with its arguments, before it is known to be finite. -/
def standardValue (mode : AngleMode) (name : String) (arguments : List Argument) :
    Option Binary64 :=
  match constant? name, arguments with
  | some value, _ => some value
  | none, argument :: _ =>
    (Function.ofName? name).map fun function => function.apply mode argument.value
  | none, [] => none

/-- A value that is not finite makes the call undefined. -/
def standardResolve (mode : AngleMode) (name : String) (arguments : List Argument) :
    Except Fault Binary64 :=
  match standardValue mode name arguments with
  | none => .error (.unknownAtom name)
  | some value =>
    if value.isFinite then .ok value
    else
      let argument := (arguments.head?.map fun argument => toString argument.value).getD ""
      .error (.undefined (.unary name argument))

def standard (mode : AngleMode) : Environment Unit where
  arity := standardArity
  resolve name arguments := Evaluation.ofExcept (standardResolve mode name arguments)

end Environment
end PocketCalc
