import PocketCalc.Character.Blank
import PocketCalc.Display.Canonical
import PocketCalc.Display.Grouping
import PocketCalc.Numeral.Read

/-! The form in which results are shown: grouped, and rounded to a number of
decimal places if one is asked for. -/

namespace PocketCalc

namespace Magnitude

def isLarge (magnitude : Magnitude) : Bool :=
  10000000000000000 * unitsPerOne ≤ magnitude.units

/-- The decimal number shown for a magnitude. To a number of places it is the exact
value rounded, a half going away from zero; no value has a digit beyond the
1074th place, so further places change nothing. -/
def shown (magnitude : Magnitude) : Option Nat → Decimal
  | none => magnitude.shortest
  | some places => (magnitude.toPlace .up (-(min places 1074 : Nat))).trim

/-- A number for display. A number shown as zero has no sign. -/
def display (magnitude : Magnitude) (negative : Bool) (precision : Option Nat) : List Char :=
  if magnitude.isLarge then withMinus negative magnitude.shortest.scientific
  else
    let decimal := magnitude.shown precision
    groupThousands (withMinus (negative && decimal.coefficient != 0) decimal.positional)

end Magnitude

/-- A text as it is read: without blanks around it and without separators, so that
a displayed number can be displayed again. -/
def withoutSeparators (text : List Char) : List Char :=
  (trimBlanks text).filter (· != ',')

def formatNumber (text : String) (precision : Option Nat) : String :=
  match Binary64.read (withoutSeparators text.toList) with
  | .ok (.finite negative magnitude) => .ofList (magnitude.display negative precision)
  | _ => errorText

end PocketCalc
