import PocketCalc.Binary64.Basic
import PocketCalc.Fault

/-! What the atoms of an expression mean. Evaluation runs over a state that only
atoms see; the state outlives a fault, so what was done before one is kept. -/

namespace PocketCalc

abbrev Evaluation (σ : Type) := ExceptT Fault (StateM σ)

def Evaluation.ofExcept {σ α : Type} : Except Fault α → Evaluation σ α
  | .ok value => pure value
  | .error fault => throw fault

/-- An argument's value, and how many tokens its brackets and their content are. -/
structure Argument where
  value : Binary64
  tokensRead : Nat
deriving DecidableEq

/-- A meaning for atoms. The arity of a constant is zero, and an atom without an
arity is unknown. An atom has one arity, whatever has been resolved before: it does not
depend on the state. An atom is resolved only with as many arguments as its arity. -/
structure Environment (σ : Type) where
  arity : String → Option Nat
  resolve : String → List Argument → Evaluation σ Binary64

end PocketCalc
