import PocketCalc.Character.Alphabetic
import PocketCalc.Character.Blank
import PocketCalc.Character.Numeric
import PocketCalc.Fault
import PocketCalc.Numeral.Read
import PocketCalc.Token.Basic

/-! Scanning an expression into tokens. Each step takes the longest lexeme at the
front of the text, so the tokens are determined by the characters alone. -/

namespace PocketCalc
namespace Token

/-- The token that a character is by itself. Of two stars the first is not. -/
def ofOperator? : Char → Option Token
  | '+' => some .plus
  | '-' => some .minus
  | '/' => some .divide
  | '*' => some .multiply
  | '^' => some .exponent
  | '(' => some .openParen
  | ')' => some .closeParen
  | _ => none

def continuesAtom (character : Char) : Bool :=
  isAlphabetic character || isNumeric character || character == '_'

/-- The characters that belong to no lexeme and end none. -/
def isForeign (character : Char) : Bool :=
  !(isBlank character || (ofOperator? character).isSome || character.isDigit)

def ofNumeral (numeral : Numeral) : Except Fault Token :=
  if numeral.digits.isEmpty then .error (.invalidNumber (.ofList numeral.text))
  else
    let value := Binary64.ofDecimal false numeral.value
    if value.isFinite then .ok (.number value)
    else .error (.invalidNumber (.ofList numeral.text))

/-- What a text begins with, a blank being no token, and what follows it. -/
def first (character : Char) (rest : List Char) : Except Fault (Option Token × List Char) :=
  if isAlphabetic character then
    .ok (some (.atom (.ofList (character :: rest.takeWhile continuesAtom))),
      rest.dropWhile continuesAtom)
  else if character.isDigit || character == '.' then
    let (numeral, rest) := Numeral.scan (character :: rest)
    (ofNumeral numeral).map fun token => (some token, rest)
  else
    match ofOperator? character, rest with
    | some .multiply, '*' :: rest => .ok (some .exponent, rest)
    | some token, rest => .ok (some token, rest)
    | none, rest =>
      if isBlank character then .ok (none, rest)
      else .error (.unrecognizedToken (.ofList ((character :: rest).takeWhile isForeign)))

theorem first_rest_length {character : Char} {rest after : List Char} {token : Option Token}
    (found : first character rest = .ok (token, after)) : after.length ≤ rest.length := by
  unfold first at found
  split at found
  · cases found
    exact Numeral.dropWhile_length_le _ _
  · split at found
    next starts =>
      have taken : (Numeral.scan (character :: rest)).2.length ≤ rest.length :=
        Numeral.scan_rest_length (by simpa using starts)
      revert found
      generalize Numeral.scan (character :: rest) = scanned at taken ⊢
      obtain ⟨numeral, after⟩ := scanned
      cases same : ofNumeral numeral <;> intro found <;>
        simp only [same, Except.map, Except.ok.injEq, Prod.mk.injEq, reduceCtorEq] at found
      obtain ⟨-, rfl⟩ := found
      exact taken
    next =>
      split at found
      · cases found
        exact Nat.le_succ _
      · cases found
        exact Nat.le_refl _
      · split at found <;> cases found
        exact Nat.le_refl _

def scan : List Char → Except Fault (List Token)
  | [] => .ok []
  | character :: rest =>
    match _ : first character rest with
    | .error fault => .error fault
    | .ok (token, after) => (scan after).map (token.toList ++ ·)
termination_by text => text.length
decreasing_by exact Nat.lt_succ_of_le (first_rest_length (by assumption))

@[simp] theorem scan_nil : scan [] = .ok [] := by rw [scan]

theorem scan_cons (character : Char) (rest : List Char) :
    scan (character :: rest) = (first character rest).bind fun (token, after) =>
      (scan after).map (token.toList ++ ·) := by
  rw [scan]
  split
  next found => rw [found]; rfl
  next found => rw [found]; rfl

end Token
end PocketCalc
