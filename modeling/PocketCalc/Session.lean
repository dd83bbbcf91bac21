import PocketCalc.Calculator
import PocketCalc.Display.Format
import PocketCalc.Keystroke

/-! The calculator's state from key to key. -/

namespace PocketCalc

/-- What a user can do. A number key is a digit or a point; a function key is the
name of a function or constant, or a parenthesis. -/
inductive Action where
  | number (key : String)
  | operator (key : String)
  | function (key : String)
  | calculate
  | clear
  | backspace
  | toggleMode
  | setError (error : Option String)
  | load (expression : String)
deriving DecidableEq

/-- After a calculation the expression is the result, from which an operator goes
on while a number or function key starts anew. -/
structure Session where
  expression : String
  result : String
  mode : AngleMode
  error : Option String
  calculated : Bool
deriving DecidableEq

def Function.opening (function : Function) : String := function.name ++ "("

namespace Session

def initial (mode : AngleMode) : Session := ⟨"", "", mode, none, false⟩

def display (session : Session) : String :=
  if session.expression.isEmpty then "0" else session.expression

def formattedResult (session : Session) (precision : Option Nat) : Option String :=
  if session.result.isEmpty || session.result == errorText then none
  else some (formatNumber session.result precision)

def append (session : Session) (text : String) : Session :=
  if isValidAppend session.expression text then
    { session with expression := session.expression ++ text }
  else session

/-- A calculated expression gives way to a new one. -/
def afresh (session : Session) : Session :=
  if session.calculated then initial session.mode else session

/-- A calculated expression is continued, unless it failed. -/
def continued (session : Session) : Session :=
  if session.calculated && session.error.isSome then initial session.mode
  else { session with calculated := false }

def typedBy (key : String) : String :=
  match Function.ofName? key with
  | some function => function.opening
  | none => key

/-- A text without its last key, where a function's name and parenthesis are one. -/
def eraseKey (text : List Char) : List Char :=
  match Function.all.find? (·.opening.toList.isSuffixOf text) with
  | some function => text.take (text.length - function.opening.length)
  | none => text.dropLast

def calculate (session : Session) : Session :=
  if session.expression.isEmpty then session
  else
    let result := answer session.expression session.mode
    { session with
      expression := result
      result
      error := if result == errorText then some errorText else none
      calculated := true }

def step (session : Session) : Action → Session
  | .number key => session.afresh.append key
  | .operator key => session.continued.append key
  | .function key => session.afresh.append (typedBy key)
  | .calculate => session.calculate
  | .clear => initial session.mode
  | .backspace =>
    { session with
      expression := .ofList (eraseKey session.expression.toList)
      calculated := false }
  | .toggleMode => { session with mode := session.mode.toggle }
  | .setError error => { session with error }
  | .load expression =>
    { session with expression, result := "", error := none, calculated := false }

def run (session : Session) (actions : List Action) : Session := actions.foldl step session

end Session
end PocketCalc
