/-! Thousands separators. -/

namespace PocketCalc

/-- Digits with a comma before every third one from the right. -/
def groupDigits : List Char → List Char
  | [] => []
  | digit :: rest =>
    if rest ≠ [] ∧ rest.length % 3 = 0 then digit :: ',' :: groupDigits rest
    else digit :: groupDigits rest

def groupWhole (numeral : List Char) : List Char :=
  groupDigits (numeral.takeWhile (· != '.')) ++ numeral.dropWhile (· != '.')

def groupThousands : List Char → List Char
  | '-' :: unsigned => '-' :: groupWhole unsigned
  | unsigned => groupWhole unsigned

end PocketCalc
