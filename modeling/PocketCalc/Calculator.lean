import PocketCalc.Display.Canonical
import PocketCalc.Environment.Standard
import PocketCalc.Expr.Evaluate
import PocketCalc.Token.Scan

/-! From the text of an expression to its value and to the calculator's answer. -/

namespace PocketCalc

def Environment.evaluateText {σ : Type} (environment : Environment σ) (text : String) :
    Evaluation σ Binary64 :=
  match Token.scan text.toList with
  | .error fault => throw fault
  | .ok tokens => environment.evaluate (Expr.ofTokens environment.arity tokens)

def evaluate (text : String) (mode : AngleMode) : Except Fault Binary64 :=
  ((Environment.standard mode).evaluateText text ()).1

/-- What the calculator answers to an expression: its value in canonical form, or
the error text if it has none. -/
def answer (text : String) (mode : AngleMode) : String :=
  match evaluate text mode with
  | .ok number => canonical number
  | .error _ => errorText

end PocketCalc
