import PocketCalc.Binary64.Arithmetic
import PocketCalc.Binary64.Elementary
import PocketCalc.Environment.Basic
import PocketCalc.Expr.Nesting

/-! The value of an expression. Operands are evaluated from left to right and an
operation is checked as soon as its operands are known, so of several faults the
leftmost is reported. -/

namespace PocketCalc
namespace Operator

/-- Whether the operands amount to a division by zero, which a negative power of
zero is too. -/
def dividesByZero : Operator → Binary64 → Binary64 → Bool
  | .over, _, divisor => divisor.isZero
  | .power, base, exponent => base.isZero && exponent.isNegative
  | _, _, _ => false

def compute : Operator → Binary64 → Binary64 → Binary64
  | .plus => .add
  | .minus => .sub
  | .times => .mul
  | .over => .div
  | .power => .pow

def quotation (operator : Operator) (left right : Binary64) : Quotation :=
  .binary operator.symbol (toString left) (toString right)

def apply (operator : Operator) (left right : Binary64) : Except Fault Binary64 :=
  if operator.dividesByZero left right then .error .divideByZero
  else
    match operator.compute left right with
    | .nan => .error (.undefined (operator.quotation left right))
    | .infinite _ => .error (.wouldOverflow (operator.quotation left right))
    | .finite negative magnitude => .ok (.finite negative magnitude)

end Operator

def Sign.apply : Sign → Binary64 → Binary64
  | .plus, value => value
  | .minus, value => value.neg

namespace Expr

mutual

/-- The value of an expression. All arguments of a call come before the call. -/
def evaluate {σ : Type} (environment : Environment σ) : Expr → Evaluation σ Binary64
  | .number value => pure value
  | .group inner => inner.evaluate environment
  | .signed sign operand => do
    let value ← operand.evaluate environment
    return sign.apply value
  | .binary operator left right => do
    let left ← left.evaluate environment
    let right ← right.evaluate environment
    Evaluation.ofExcept (operator.apply left right)
  | .adjoining left right => do
    let left ← left.evaluate environment
    let right ← right.evaluate environment
    Evaluation.ofExcept (Operator.times.apply left right)
  | .call name arguments => do
    let arguments ← evaluateAll environment arguments
    environment.resolve name arguments

def evaluateAll {σ : Type} (environment : Environment σ) :
    List Expr → Evaluation σ (List Argument)
  | [] => pure []
  | first :: others => do
    let value ← first.evaluate environment
    let values ← evaluateAll environment others
    return ⟨value, first.width⟩ :: values

end

end Expr

/-- What was complete is evaluated, and only if all of it has values is the fault reported. -/
def Environment.interrupt {σ α : Type} (environment : Environment σ)
    (interruption : Interruption) : Evaluation σ α := do
  let _ ← Expr.evaluateAll environment interruption.complete
  throw interruption.fault

def Environment.evaluate {σ : Type} (environment : Environment σ) :
    Except Interruption Expr → Evaluation σ Binary64
  | .ok expr => expr.evaluate environment
  | .error interruption => environment.interrupt interruption

end PocketCalc
