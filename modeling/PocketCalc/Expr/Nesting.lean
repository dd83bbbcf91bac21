import PocketCalc.Expr.Reader

/-! Reading an expression from tokens. From loose to tight: sums, products,
signs, powers, and then numbers, calls and groups. A product needs no operator
before an atom or a parenthesis. Each group, sign, exponent and argument opens a
new level of nesting, and the readers of a level are built from those of the
level within it, so that reading ends for want of levels or of tokens. -/

namespace PocketCalc

structure Level where
  sum : Reader
  signed : Reader
  primary : Reader

namespace Level

/-- Beyond the last level there is nothing to read. -/
def exhausted : Level := ⟨tooDeep, tooDeep, tooDeep⟩
where
  tooDeep : Reader := ⟨fun _ => .error (.here .nestingTooDeep), nofun⟩

/-- Read as many bracketed arguments as a function takes, none of them empty. -/
def readArguments (argument : Reader) (name : String) :
    Nat → List Token → Except Interruption (List Expr × List Token)
  | 0, input => .ok ([], input)
  | _ + 1, .openParen :: .closeParen :: _ => .error (.here (.noFunctionArgument name))
  | count + 1, .openParen :: token :: input =>
    match argument.read (.openParen :: token :: input) with
    | .error interruption => .error interruption
    | .ok (first, rest) =>
      match readArguments argument name count rest with
      | .error interruption => .error (interruption.after first)
      | .ok (others, rest) => .ok (first :: others, rest)
  | _ + 1, _ => .error (.here (.noFunctionArgument name))

theorem readArguments_rest_length {argument : Reader} {name : String} {count : Nat}
    {input rest : List Token} {arguments : List Expr}
    (success : readArguments argument name count input = .ok (arguments, rest)) :
    rest.length ≤ input.length := by
  induction count generalizing input arguments with
  | zero =>
    cases success
    exact Nat.le_refl _
  | succ count ih =>
    unfold readArguments at success
    split at success
    · contradiction
    · cases success
    next same =>
      cases same
      split at success
      · cases success
      next shorter =>
        split at success <;> cases success
        next others =>
          exact Nat.le_trans (ih others) (Nat.le_of_lt (argument.progress shorter))
    · cases success

def readPrimary (arity : String → Option Nat) (inner : Level) : List Token → Reading
  | [] => .error (.here .unexpectedEndOfInput)
  | .number value :: rest => .ok (.number value, rest)
  | .atom name :: rest =>
    match arity name with
    | none => .error (.here (.unknownAtom name))
    | some count =>
      match readArguments inner.primary name count rest with
      | .error interruption => .error interruption
      | .ok (arguments, rest) => .ok (.call name arguments, rest)
  | .openParen :: rest =>
    match inner.sum.read rest with
    | .error interruption => .error interruption
    | .ok (expr, .closeParen :: rest) => .ok (.group expr, rest)
    | .ok (expr, []) => .error ⟨[expr], .unmatchedParenthesis⟩
    | .ok (expr, token :: _) => .error ⟨[expr], .unexpectedToken token.text .closeParen⟩
  | token :: _ => .error (.here (.unexpectedToken token.text .number))

def primaryReader (arity : String → Option Nat) (inner : Level) : Reader where
  read := readPrimary arity inner
  progress success := by
    unfold readPrimary at success
    split at success
    · cases success
    · cases success
      exact Nat.lt_succ_self _
    · split at success
      · cases success
      · split at success <;> cases success
        next arguments => exact Nat.lt_succ_of_le (readArguments_rest_length arguments)
    · split at success <;> cases success
      next shorter =>
        have taken := inner.sum.progress shorter
        simp only [List.length_cons] at taken ⊢
        omega
    · cases success

def powerReader (primary : Reader) (inner : Level) : Reader where
  read input :=
    match primary.read input with
    | .error interruption => .error interruption
    | .ok (base, .exponent :: rest) =>
      match inner.signed.read rest with
      | .error interruption => .error (interruption.after base)
      | .ok (exponent, rest) => .ok (.binary .power base exponent, rest)
    | .ok (base, rest) => .ok (base, rest)
  progress success := by
    split at success
    · cases success
    next shorter =>
      split at success <;> cases success
      next further =>
        have first := primary.progress shorter
        have second := inner.signed.progress further
        simp only [List.length_cons] at first
        omega
    next shorter =>
      cases success
      exact primary.progress shorter

def withSign (sign : Sign) : Reading → Reading
  | .error interruption => .error interruption
  | .ok (operand, rest) => .ok (.signed sign operand, rest)

theorem withSign_progress {reader : Reader} {sign : Sign} {input rest : List Token} {expr : Expr}
    (success : withSign sign (reader.read input) = .ok (expr, rest)) :
    rest.length < input.length := by
  unfold withSign at success
  split at success <;> cases success
  next shorter => exact reader.progress shorter

def signedReader (power : Reader) (inner : Level) : Reader where
  read
    | .plus :: rest => withSign .plus (inner.signed.read rest)
    | .minus :: rest => withSign .minus (inner.signed.read rest)
    | input => power.read input
  progress success := by
    split at success
    · exact Nat.lt_succ_of_lt (withSign_progress success)
    · exact Nat.lt_succ_of_lt (withSign_progress success)
    · exact power.progress success

def around (arity : String → Option Nat) (inner : Level) : Level :=
  let primary := primaryReader arity inner
  let power := powerReader primary inner
  let signed := signedReader power inner
  let product := signed.chain (Reader.multiplicative signed power)
  ⟨product.chain (Reader.additive product), signed, primary⟩

def remaining (arity : String → Option Nat) : Nat → Level
  | 0 => exhausted
  | levels + 1 => (remaining arity levels).around arity

end Level

namespace Expr

/-- How many levels may be nested within the outermost one. -/
def nestingLimit : Nat := 64

def ofTokens (arity : String → Option Nat) (tokens : List Token) : Except Interruption Expr :=
  match (Level.remaining arity (nestingLimit + 1)).sum.read tokens with
  | .error interruption => .error interruption
  | .ok (expr, []) => .ok expr
  | .ok (expr, .closeParen :: _) => .error ⟨[expr], .unmatchedParenthesis⟩
  | .ok (expr, token :: _) => .error ⟨[expr], .unexpectedToken token.text .operator⟩

end Expr
end PocketCalc
