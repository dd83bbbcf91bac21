import PocketCalc.Decimal.Basic
import PocketCalc.Sign

/-! Unsigned numerals such as `12`, `1.5`, `.5`, `5.` and `2.5e+16`. Scanning
takes the longest numeral at the front of a text; an `e` that no exponent digit
follows is left behind. -/

namespace PocketCalc

/-- A numeral as written. The digits after the point may be missing without the
point, and so may those before it. -/
structure Numeral where
  whole : List Char
  fraction : Option (List Char)
  exponent : Option (Option Sign × List Char)
deriving DecidableEq

namespace Numeral

def digits (numeral : Numeral) : List Char := numeral.whole ++ numeral.fraction.getD []

def text (numeral : Numeral) : List Char :=
  numeral.whole ++
    (match numeral.fraction with
      | none => []
      | some digits => '.' :: digits) ++
    (match numeral.exponent with
      | none => []
      | some (sign, digits) => 'e' :: (sign.map Sign.char).toList ++ digits)

def scale (numeral : Numeral) : Int :=
  match numeral.exponent with
  | none => 0
  | some (some .minus, digits) => -(Nat.ofDigitChars 10 digits 0 : Int)
  | some (_, digits) => Nat.ofDigitChars 10 digits 0

def value (numeral : Numeral) : Decimal :=
  ⟨Nat.ofDigitChars 10 numeral.digits 0, numeral.scale - (numeral.fraction.getD []).length⟩

def scanFraction : List Char → Option (List Char) × List Char
  | '.' :: rest => (some (rest.takeWhile Char.isDigit), rest.dropWhile Char.isDigit)
  | text => (none, text)

/-- An exponent mark with its sign and digits, if there is at least one digit. -/
def scanExponent : List Char → Option (Option Sign × List Char) × List Char
  | [] => (none, [])
  | mark :: rest =>
    let (sign, unsigned) := Sign.scan? rest
    let digits := unsigned.takeWhile Char.isDigit
    if (mark == 'e' || mark == 'E') && !digits.isEmpty then
      (some (sign, digits), unsigned.dropWhile Char.isDigit)
    else (none, mark :: rest)

/-- The longest numeral a text begins with, and what follows it. A point alone
takes no exponent. -/
def scan (text : List Char) : Numeral × List Char :=
  let whole := text.takeWhile Char.isDigit
  let (fraction, rest) := scanFraction (text.dropWhile Char.isDigit)
  if (whole ++ fraction.getD []).isEmpty then (⟨whole, fraction, none⟩, rest)
  else
    let (exponent, rest) := scanExponent rest
    (⟨whole, fraction, exponent⟩, rest)

theorem dropWhile_length_le (p : Char → Bool) (text : List Char) :
    (text.dropWhile p).length ≤ text.length :=
  (List.dropWhile_sublist p).length_le

theorem scanFraction_rest_length (text : List Char) :
    (scanFraction text).2.length ≤ text.length := by
  unfold scanFraction
  split
  · exact Nat.le_succ_of_le (dropWhile_length_le _ _)
  · exact Nat.le_refl _

theorem scanExponent_rest_length (text : List Char) :
    (scanExponent text).2.length ≤ text.length := by
  unfold scanExponent
  split
  · exact Nat.le_refl _
  next mark rest =>
    dsimp only
    split
    · exact Nat.le_succ_of_le
        (Nat.le_trans (dropWhile_length_le _ _) (Sign.scan?_rest_length rest))
    · exact Nat.le_refl _

theorem scan_rest_length_le_fraction (text : List Char) :
    (scan text).2.length ≤ (scanFraction (text.dropWhile Char.isDigit)).2.length := by
  unfold scan
  dsimp only
  split
  · exact Nat.le_refl _
  · exact scanExponent_rest_length _

/-- A numeral that begins with a digit or a point takes at least that. -/
theorem scan_rest_length {first : Char} {rest : List Char}
    (starts : first.isDigit = true ∨ first = '.') :
    (scan (first :: rest)).2.length ≤ rest.length := by
  refine Nat.le_trans (scan_rest_length_le_fraction _) ?_
  by_cases digit : first.isDigit = true
  · rw [List.dropWhile_cons_of_pos digit]
    exact Nat.le_trans (scanFraction_rest_length _) (dropWhile_length_le _ _)
  · obtain rfl := starts.resolve_left digit
    exact dropWhile_length_le _ _

end Numeral
end PocketCalc
