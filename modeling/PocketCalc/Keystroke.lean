/-! Which keys may follow the text typed so far. Only points and the four
arithmetic keys are ever refused. -/

namespace PocketCalc

/-- The characters that separate one number being typed from the next. -/
def isArithmetic (character : Char) : Bool :=
  character == '+' || character == '-' || character == '*' || character == '/'

def lastStretch (text : List Char) : List Char :=
  (text.reverse.takeWhile fun character => !isArithmetic character).reverse

/-- An arithmetic key may follow what is not one. After another, or at the front,
only a minus may stand, and nothing after a minus. -/
def acceptsArithmetic (key : Char) : Option Char → Bool
  | none => key == '-'
  | some '-' => false
  | some last => !isArithmetic last || key == '-'

/-- Whether a key may follow a text. A stretch has at most one point. -/
def accepts (text : List Char) : List Char → Bool
  | ['.'] => !(lastStretch text).contains '.'
  | [key] => !isArithmetic key || acceptsArithmetic key text.getLast?
  | _ => true

def isValidAppend (current candidate : String) : Bool := accepts current.toList candidate.toList

end PocketCalc
