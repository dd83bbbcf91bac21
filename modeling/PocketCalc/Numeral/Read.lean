import PocketCalc.Decimal.Nearest
import PocketCalc.Numeral.Basic

/-! Reading a whole text as a number: an optional sign, then a numeral or the name
of an infinity or a non-number. -/

namespace PocketCalc

inductive ReadFault where
  | empty
  | malformed
deriving DecidableEq

def ReadFault.message : ReadFault → String
  | .empty => "cannot parse float from empty string"
  | .malformed => "invalid float literal"

namespace Binary64

def ofName? (negative : Bool) (text : List Char) : Option Binary64 :=
  let name := text.map Char.toLower
  if name = "inf".toList ∨ name = "infinity".toList then some (.infinite negative)
  else if name = "nan".toList then some .nan
  else none

def ofNumeral? (negative : Bool) (text : List Char) : Option Binary64 :=
  match Numeral.scan text with
  | (numeral, []) =>
    if numeral.digits.isEmpty then none else some (.ofDecimal negative numeral.value)
  | _ => none

def read (text : List Char) : Except ReadFault Binary64 :=
  if text.isEmpty then .error .empty
  else
    let (sign, unsigned) := Sign.scan? text
    let negative := sign = some .minus
    match (ofName? negative unsigned).or (ofNumeral? negative unsigned) with
    | some value => .ok value
    | none => .error .malformed

end Binary64
end PocketCalc
