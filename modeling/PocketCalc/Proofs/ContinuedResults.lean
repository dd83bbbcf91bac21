import PocketCalc.Proofs.TypedOperations

/-! An operator takes a result that is shown as its left operand. A result is continued as text,
and as a numeral, perhaps behind a minus, it is read the same as in parentheses, with one
exception: a power binds tighter than the minus, so of a negative result it takes the number
behind the minus. -/

namespace PocketCalc

private theorem Numeral.continues_key (operator : Operator) : continues operator.key = false := by
  cases operator <;> rfl

/-- A text that is scanned into tokens before any text that cannot go on with a numeral. -/
def Token.SplitsOff (text : List Char) (tokens : List Token) : Prop :=
  ∀ rest, (∀ first ∈ rest.head?, Numeral.continues first = false) →
    scan (text ++ rest) = (scan rest).map (tokens ++ ·)

namespace Token.SplitsOff

variable {text : List Char} {tokens : List Token}

private theorem minus (splitsOff : SplitsOff text tokens) :
    SplitsOff ('-' :: text) (.minus :: tokens) := by
  intro rest stops
  rw [List.cons_append, scan_of_first rfl, splitsOff rest stops]
  cases scan rest <;> rfl

private theorem enclosed (splitsOff : SplitsOff text tokens) :
    SplitsOff ('(' :: text ++ [')']) (.openParen :: tokens ++ [.closeParen]) := by
  intro rest _
  have stops : ∀ first ∈ (')' :: rest).head?, Numeral.continues first = false := by
    intro first begins
    cases begins
    rfl
  rw [List.append_assoc, List.cons_append, scan_of_first rfl, List.singleton_append,
    splitsOff _ stops, scan_of_first rfl]
  cases scan rest <;> simp [Except.map]

private theorem operated {operator : Operator} {tree : Binary64 → Expr}
    (splitsOff : SplitsOff text tokens)
    (derived : ∀ number, Derives Environment.standardArity .sum
      (tokens ++ [operator.token, .number number]) (tree number))
    (shallow : ∀ number, (tree number).nesting ≤ Expr.nestingLimit) :
    Operated (.ofList text) operator tree := by
  refine ⟨⟨tokens, fun digits _ _ => ?_, derived⟩, shallow⟩
  rw [String.toList_ofList]
  apply splitsOff
  intro first begins
  cases begins
  exact Numeral.continues_key operator

end Token.SplitsOff

/-- A text that is read as an expression of a category, whatever operator stands behind it. -/
inductive Phrase (category : Category) (text : List Char) (expr : Expr) : Prop
  | tokens {tokens} : Token.SplitsOff text tokens →
      Derives Environment.standardArity category tokens expr → Phrase category text expr

namespace Phrase

variable {text : List Char} {expr : Expr}

private theorem numeral {numeral : Numeral} {lexeme : List Char} {magnitude : Magnitude}
    (spells : numeral.Spells lexeme) (nearest : Magnitude.Nearest numeral.value.units magnitude) :
    Phrase .primary lexeme (.number (.finite false magnitude)) := by
  refine .tokens (fun rest stops => ?_) .number
  exact Token.scan_lexeme (.number spells (.finite nearest)) (.of_numeral spells stops) rfl

private theorem signed (phrase : Phrase .primary text expr) : Phrase .signed text expr := by
  obtain ⟨splitsOff, derived⟩ := phrase
  exact .tokens splitsOff (.power (.primary derived))

private theorem minus (phrase : Phrase .signed text expr) :
    Phrase .signed ('-' :: text) (.signed .minus expr) := by
  obtain ⟨splitsOff, derived⟩ := phrase
  exact .tokens splitsOff.minus (.negative derived)

private theorem enclosed (phrase : Phrase .signed text expr) :
    Phrase .primary ('(' :: text ++ [')']) (.group expr) := by
  obtain ⟨splitsOff, derived⟩ := phrase
  exact .tokens splitsOff.enclosed (.group (.product (.signed derived)))

variable {operator : Operator} (shallow : expr.nesting < Expr.nestingLimit)
include shallow

/-- A factor is the left operand of every operator but a power. -/
theorem operated (phrase : Phrase .signed text expr) (other : operator ≠ .power) :
    Operated (.ofList text) operator fun number => .binary operator expr (.number number) := by
  obtain ⟨splitsOff, derived⟩ := phrase
  refine splitsOff.operated (fun number => ?_) fun number => ?_
  · have right : Derives Environment.standardArity .signed [.number number] (.number number) :=
      .power (.primary .number)
    match operator with
    | .plus => exact .plus (.product (.signed derived)) (.signed right)
    | .minus => exact .minus (.product (.signed derived)) (.signed right)
    | .times => exact .product (.times (.signed derived) right)
    | .over => exact .product (.over (.signed derived) right)
    | .power => contradiction
  · have level : (Expr.binary operator expr (.number number)).nesting = max expr.nesting 0 := by
      cases operator <;> first | rfl | contradiction
    rw [level, Nat.max_zero]
    exact shallow.le

private theorem nesting_raised (number : Binary64) :
    (Expr.binary .power expr (.number number)).nesting < Expr.nestingLimit :=
  max_lt shallow (by decide : 0 + 1 < Expr.nestingLimit)

private theorem operated_of_primary (phrase : Phrase .primary text expr) (operator : Operator) :
    Operated (.ofList text) operator fun number => .binary operator expr (.number number) := by
  by_cases power : operator = .power
  · subst power
    obtain ⟨splitsOff, derived⟩ := phrase
    refine splitsOff.operated (fun number => ?_) fun number => (nesting_raised shallow number).le
    exact .product (.signed (.power (.raised derived (.power (.primary .number)))))
  · exact phrase.signed.operated shallow power

/-- A minus before a power is a sign of the power. -/
theorem operated_of_minus (phrase : Phrase .primary text expr) :
    Operated (.ofList ('-' :: text)) .power fun number =>
      .signed .minus (.binary .power expr (.number number)) := by
  obtain ⟨splitsOff, derived⟩ := phrase
  refine splitsOff.minus.operated (fun number => ?_) fun number => nesting_raised shallow number
  exact .product (.signed (.negative (.power (.raised derived (.power (.primary .number))))))

end Phrase

theorem Operated.answer_eq {left other : String} {operator : Operator} {tree another : Binary64 → Expr}
    (first : Operated left operator tree) (second : Operated other operator another)
    {mode : AngleMode} (same : ∀ number, (tree number).evaluate (.standard mode) =
      (another number).evaluate (.standard mode)) {digits : List Char} (present : digits ≠ [])
    (all : Numeral.Digits digits) :
    answer (left ++ operator.symbol ++ .ofList digits) mode =
      answer (other ++ operator.symbol ++ .ofList digits) mode := by
  rw [answer, answer, first.evaluate present all, second.evaluate present all,
    same]

section
variable {numeral : Numeral} {lexeme : List Char} {magnitude : Magnitude}
  (spells : numeral.Spells lexeme) (nearest : Magnitude.Nearest numeral.value.units magnitude)
  {digits : List Char} (present : digits ≠ []) (all : Numeral.Digits digits) (mode : AngleMode)
include spells nearest present all

/-- A number is the left operand as if it were in parentheses, unless it has a minus and is
raised to a power. -/
theorem answer_enclosed {operator : Operator} {negative : Bool}
    (unsigned : operator = .power → negative = false) :
    answer (.ofList (withMinus negative lexeme) ++ operator.symbol ++ .ofList digits) mode =
      answer (.ofList ('(' :: withMinus negative lexeme ++ [')']) ++ operator.symbol ++
        .ofList digits) mode := by
  have number := Phrase.numeral spells nearest
  cases negative with
  | false =>
    refine (number.operated_of_primary ?_ operator).answer_eq
      (number.signed.enclosed.operated_of_primary ?_ operator) (fun _ => rfl) present all
    all_goals simp [Expr.nesting, Expr.nestingLimit]
  | true =>
    have other : operator ≠ .power := fun power => Bool.noConfusion (unsigned power)
    refine (number.signed.minus.operated ?_ other).answer_eq
      (number.signed.minus.enclosed.operated_of_primary ?_ operator) (fun _ => rfl) present all
    all_goals simp [Expr.nesting, Expr.nestingLimit]

/-- A power of a number with a minus is the power of the number without it, with the minus. -/
theorem answer_minus_enclosed :
    answer (.ofList ('-' :: lexeme) ++ Operator.power.symbol ++ .ofList digits) mode =
      answer (.ofList ('-' :: '(' :: lexeme ++ [')']) ++ Operator.power.symbol ++
        .ofList digits) mode := by
  have number := Phrase.numeral spells nearest
  refine (number.operated_of_minus ?_).answer_eq (number.signed.enclosed.operated_of_minus ?_)
    (fun _ => rfl) present all
  all_goals simp [Expr.nesting, Expr.nestingLimit]

end

private theorem exists_spells_canonical {value : Binary64} (finite : value.isFinite = true) :
    ∃ (negative : Bool) (numeral : Numeral) (lexeme : List Char) (magnitude : Magnitude),
      canonical value = .ofList (withMinus negative lexeme) ∧ numeral.Spells lexeme ∧
        Magnitude.Nearest numeral.value.units magnitude := by
  match value with
  | .finite negative magnitude =>
    obtain ⟨text, ⟨numeral, spells, same⟩, canonical⟩ := canonical_written negative magnitude
    obtain ⟨other, nearest⟩ := magnitude.exists_nearest_significant
    rw [Decimal.units, ← same] at nearest
    exact ⟨_, numeral, text, other, canonical, spells, nearest⟩

private theorem eq_minus_of_withMinus {numeral : Numeral} {lexeme rest : List Char}
    {negative : Bool} (spells : numeral.Spells lexeme)
    (same : withMinus negative lexeme = '-' :: rest) : negative = true ∧ lexeme = rest := by
  cases negative with
  | true => exact ⟨rfl, (List.cons.inj same).2⟩
  | false =>
    obtain ⟨first, others, rfl, begun⟩ := spells.exists_first
    cases same
    exact absurd begun (by decide)

namespace Session

/-- An operator, a whole number and a calculation take the result that is shown as the left
operand, as if it stood in parentheses, unless a negative result is raised to a power. Then the
number behind the minus is raised, and the minus is kept. -/
theorem results_are_continued (mode : AngleMode) (actions : List Action) (operator : Operator)
    (digits : List Char) (present : digits ≠ []) (all : ∀ digit ∈ digits, digit.isDigit = true) :
    let session := (initial mode).run actions
    session.calculated = true → session.error = none → session.result ≠ errorText →
    ((operator = .power → session.result.toList.head? ≠ some '-') →
      (session.run (operation operator digits)).result =
        answer ("(" ++ session.result ++ ")" ++ operator.symbol ++ .ofList digits) session.mode) ∧
    ∀ unsigned, session.result = "-" ++ unsigned → operator = .power →
      (session.run (operation operator digits)).result =
        answer ("-(" ++ unsigned ++ ")^" ++ .ofList digits) session.mode := by
  intro session calculated succeeded number
  have coherent : session.Coherent := run_coherent mode actions
  obtain ⟨shown, nonempty⟩ := coherent.shown calculated
  obtain ⟨value, finite, same⟩ := (coherent.result.resolve_left nonempty).resolve_left number
  obtain ⟨negative, numeral, lexeme, magnitude, text, spells, nearest⟩ :=
    exists_spells_canonical finite
  have written : session.result = .ofList (withMinus negative lexeme) := same.trans text
  have accepted : isValidAppend session.expression operator.symbol = true := by
    have evaluated := evaluate_withMinus ⟨numeral, spells, rfl⟩ nearest negative session.mode
    rw [← written, ← shown] at evaluated
    exact isValidAppend_of_evaluate evaluated operator
  have answered := run_operation (by simp [succeeded]) accepted all
  rw [shown] at answered
  rw [answered]
  constructor
  · intro unsigned
    have bare : operator = .power → negative = false := by
      intro power
      have front := unsigned power
      cases negative with
      | false => rfl
      | true => simp [written, withMinus] at front
    have enclosed : "(" ++ String.ofList (withMinus negative lexeme) ++ ")" =
        .ofList ('(' :: withMinus negative lexeme ++ [')']) := String.toList_inj.mp (by simp)
    rw [written, enclosed, answer_enclosed spells nearest present all session.mode bare]
  · rintro unsigned split rfl
    have characters := congrArg String.toList (written.symm.trans split)
    simp only [String.toList_ofList, String.toList_append] at characters
    obtain ⟨rfl, rfl⟩ := eq_minus_of_withMinus spells characters
    have enclosed : "-(" ++ unsigned ++ ")^" ++ .ofList digits =
        .ofList ('-' :: '(' :: unsigned.toList ++ [')']) ++ Operator.power.symbol ++
          .ofList digits := String.toList_inj.mp (by simp [Operator.symbol])
    rw [written, enclosed]
    exact answer_minus_enclosed spells nearest present all session.mode

/-- The result -2 is multiplied as a whole, but its square is that of 2 behind the minus. -/
theorem results_are_continued_from_minus_two :
    let actions : List Action := [.operator "-", .number "2", .calculate]
    let session := (initial .degrees).run actions
    session.calculated = true ∧ session.error = none ∧ session.result = "-2" ∧
    (session.run (operation .times ['3'])).result = answer "(-2)*3" .degrees ∧
    (session.run (operation .power ['2'])).result = answer "-(2)^2" .degrees := by
  intro actions session
  have calculated : session.calculated = true := by decide +kernel
  have succeeded : session.error = none := by decide +kernel
  have result : session.result = "-2" := by decide +kernel
  have number : session.result ≠ errorText := by
    rw [result]
    decide
  have mode : session.mode = .degrees := by decide +kernel
  have product := (results_are_continued .degrees actions .times ['3'] (by decide)
    (List.forall_mem_singleton.mpr rfl) calculated succeeded number).1 nofun
  have power := (results_are_continued .degrees actions .power ['2'] (by decide)
    (List.forall_mem_singleton.mpr rfl) calculated succeeded number).2 "2" result rfl
  change _ = answer ("(" ++ session.result ++ ")" ++ Operator.times.symbol ++ _) session.mode at product
  rw [result, mode] at product
  exact ⟨calculated, succeeded, result, product, power⟩

end Session
end PocketCalc
