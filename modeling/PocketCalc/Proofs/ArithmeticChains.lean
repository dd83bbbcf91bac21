import PocketCalc.Proofs.Calculator
import PocketCalc.Proofs.LexemeEnds
import PocketCalc.Proofs.TidyText

/-! Numerals without exponents, some behind a minus, joined by arithmetic characters. Such a
chain scans from left to right into tokens that form a sum, however long it is, unless one of
its numerals is too large. -/

namespace PocketCalc

namespace Numeral

private theorem continues_of_arithmetic {character : Char}
    (arithmetic : isArithmetic character = true) : continues character = false := by
  simp only [isArithmetic, Bool.or_eq_true, beq_iff_eq] at arithmetic
  rcases arithmetic with ((rfl | rfl) | rfl) | rfl <;> rfl

private theorem Spells.text_eq {numeral : Numeral} {lexeme : List Char}
    (spells : numeral.Spells lexeme) (plain : numeral.exponent = none) : numeral.text = lexeme := by
  obtain ⟨_, fractional, _, exponential⟩ := spells
  cases exponential with
  | marked => cases plain
  | absent => cases fractional <;> simp [text]

end Numeral

/-- The report of a numeral in a text that is beyond every number. -/
inductive Fault.TooLarge (text : List Char) : Fault → Prop
  | numeral {numeral : Numeral} {lexeme} : lexeme <:+: text → numeral.Spells lexeme →
      Magnitude.overflow ≤ numeral.value.units → TooLarge text (.invalidNumber (.ofList lexeme))

theorem Fault.TooLarge.mono {text longer : List Char} {fault : Fault} (large : fault.TooLarge text)
    (within : text <:+: longer) : fault.TooLarge longer := by
  obtain ⟨inside, spells, beyond⟩ := large
  exact .numeral (inside.trans within) spells beyond

namespace Token

private theorem ofNumeral_of_plain {numeral : Numeral} {lexeme : List Char}
    (spells : numeral.Spells lexeme) (plain : numeral.exponent = none) :
    (∃ value, ofNumeral numeral = .ok (.number value)) ∨
      ∃ fault, ofNumeral numeral = .error fault ∧ fault.TooLarge lexeme := by
  obtain ⟨magnitude, found⟩ | ⟨failed, beyond⟩ := ofNumeral_eq_or spells
  · exact .inl ⟨_, found⟩
  · rw [spells.text_eq plain] at failed
    exact .inr ⟨_, failed, .numeral List.infix_rfl spells beyond⟩

/-- An arithmetic character is an operator, be it a star, if no star follows it. -/
theorem first_arithmetic {key : Char} {rest : List Char} (arithmetic : isArithmetic key = true)
    (single : rest.head? ≠ some '*') : ∃ operator : Operator, operator ≠ .power ∧
      first key rest = .ok (some operator.token, rest) := by
  simp only [isArithmetic, Bool.or_eq_true, beq_iff_eq] at arithmetic
  rcases arithmetic with ((rfl | rfl) | rfl) | rfl
  · exact ⟨.plus, by decide, first_operator .plus single⟩
  · exact ⟨.minus, by decide, first_operator .minus single⟩
  · exact ⟨.times, by decide, first_operator .times single⟩
  · exact ⟨.over, by decide, first_operator .over single⟩

end Token

/-- A numeral without an exponent, or one behind a minus. -/
inductive Operand : List Char → Prop
  | unsigned {numeral : Numeral} {lexeme} : numeral.exponent = none → numeral.Spells lexeme →
      Operand lexeme
  | negative {numeral : Numeral} {lexeme} : numeral.exponent = none → numeral.Spells lexeme →
      Operand ('-' :: lexeme)

inductive Chain : List Char → Prop
  | operand {lexeme} : Operand lexeme → Chain lexeme
  | more {lexeme key rest} : Operand lexeme → isArithmetic key = true → Chain rest →
      Chain (lexeme ++ key :: rest)

private theorem Operand.head?_ne_star {lexeme : List Char} (operand : Operand lexeme)
    (rest : List Char) : (lexeme ++ rest).head? ≠ some '*' := by
  cases operand with
  | unsigned _ spells =>
    obtain ⟨first, others, rfl, begun⟩ := spells.exists_first
    intro star
    cases star
    exact absurd begun (by decide)
  | negative => exact nofun

private theorem Chain.head?_ne_star {text : List Char} (chain : Chain text) :
    text.head? ≠ some '*' := by
  cases chain with
  | operand operand => simpa using operand.head?_ne_star []
  | more operand => exact operand.head?_ne_star _

/-- The last product of a sum, which any other product may stand in for. -/
theorem Derives.exists_last_product {arity : String → Option Nat} {levels : Nat}
    {tokens : List Token} {expr : Expr} (sum : Derives arity .sum tokens expr)
    (shallow : expr.nesting ≤ levels) : ∃ before last product, tokens = before ++ last ∧
      Derives arity .product last product ∧ product.nesting ≤ levels ∧
      ∀ other substitute, Derives arity .product other substitute → substitute.nesting ≤ levels →
        ∃ joined, Derives arity .sum (before ++ other) joined ∧ joined.nesting ≤ levels := by
  cases sum with
  | product derived =>
    refine ⟨[], tokens, expr, rfl, derived, shallow, ?_⟩
    exact fun _ _ other bound => ⟨_, .product other, bound⟩
  | @plus left right first second leftward rightward =>
    obtain ⟨former, latter⟩ := max_le_iff.mp shallow
    refine ⟨left ++ [.plus], right, second, by simp, rightward, latter, ?_⟩
    intro other substitute derived bound
    rw [List.append_assoc]
    exact ⟨_, leftward.plus derived, max_le former bound⟩
  | @minus left right first second leftward rightward =>
    obtain ⟨former, latter⟩ := max_le_iff.mp shallow
    refine ⟨left ++ [.minus], right, second, by simp, rightward, latter, ?_⟩
    intro other substitute derived bound
    rw [List.append_assoc]
    exact ⟨_, leftward.minus derived, max_le former bound⟩

variable (arity : String → Option Nat)

/-- Tokens of a category without names, in which a sign is all that nests. -/
structure Plain (category : Category) (tokens : List Token) : Prop where
  derived : ∃ expr, Derives arity category tokens expr ∧ expr.nesting ≤ 1
  unnamed : ∀ token ∈ tokens, token.name? = none

variable {arity}

private theorem Plain.sum_of_signed {tokens : List Token} (factor : Plain arity .signed tokens) :
    Plain arity .sum tokens := by
  obtain ⟨⟨expr, derived, shallow⟩, unnamed⟩ := factor
  exact ⟨⟨expr, .product (.signed derived), shallow⟩, unnamed⟩

/-- A sum goes on with one more factor, which its last product takes if the operator is tight. -/
theorem Plain.extend {left right : List Token} {operator : Operator} (sum : Plain arity .sum left)
    (other : operator ≠ .power) (factor : Plain arity .signed right) :
    Plain arity .sum (left ++ operator.token :: right) := by
  obtain ⟨first, leftward, bound⟩ := sum.derived
  obtain ⟨second, rightward, shallow⟩ := factor.derived
  constructor
  · match operator with
    | .plus => exact ⟨_, leftward.plus (.signed rightward), max_le bound shallow⟩
    | .minus => exact ⟨_, leftward.minus (.signed rightward), max_le bound shallow⟩
    | .times =>
      obtain ⟨_, _, _, rfl, last, within, substitute⟩ := leftward.exists_last_product bound
      rw [List.append_assoc]
      exact substitute _ _ (last.times rightward) (max_le within shallow)
    | .over =>
      obtain ⟨_, _, _, rfl, last, within, substitute⟩ := leftward.exists_last_product bound
      rw [List.append_assoc]
      exact substitute _ _ (last.over rightward) (max_le within shallow)
    | .power => contradiction
  · rw [List.forall_mem_append, List.forall_mem_cons]
    exact ⟨sum.unnamed, by cases operator <;> rfl, factor.unnamed⟩

variable (arity)

theorem Operand.scan {lexeme rest : List Char} (operand : Operand lexeme)
    (stops : ∀ first ∈ rest.head?, isArithmetic first = true) :
    (∃ tokens, Plain arity .signed tokens ∧
      Token.scan (lexeme ++ rest) = (Token.scan rest).map (tokens ++ ·)) ∨
    ∃ fault, Token.scan (lexeme ++ rest) = .error fault ∧ fault.TooLarge lexeme := by
  have ends : ∀ first ∈ rest.head?, Numeral.continues first = false :=
    fun first begins => Numeral.continues_of_arithmetic (stops first begins)
  cases operand with
  | unsigned plain spells =>
    rw [Token.scan_numeral spells ends]
    rcases Token.ofNumeral_of_plain spells plain with ⟨value, number⟩ | ⟨fault, failed, large⟩
    · rw [number]
      have derived : Derives arity .signed [.number value] (.number value) :=
        .power (.primary .number)
      exact .inl ⟨_, ⟨⟨_, derived, Nat.zero_le 1⟩, by simp [Token.name?]⟩, rfl⟩
    · rw [failed]
      exact .inr ⟨fault, rfl, large⟩
  | @negative numeral lexeme plain spells =>
    rw [List.cons_append, Token.scan_of_first rfl, Token.scan_numeral spells ends]
    rcases Token.ofNumeral_of_plain spells plain with ⟨value, number⟩ | ⟨fault, failed, large⟩
    · rw [number]
      have derived : Derives arity .signed [.minus, .number value]
          (.signed .minus (.number value)) := .negative (.power (.primary .number))
      refine .inl ⟨_, ⟨⟨_, derived, Nat.le_refl 1⟩, by simp [Token.name?]⟩, ?_⟩
      cases Token.scan rest <;> rfl
    · rw [failed]
      exact .inr ⟨fault, rfl, large.mono ⟨['-'], [], by simp⟩⟩

/-- Tokens that are a sum, alone as well as behind another sum and an operator. -/
structure Summands (tokens : List Token) : Prop where
  sum : Plain arity .sum tokens
  behind : ∀ (left : List Token) (operator : Operator), Plain arity .sum left →
    operator ≠ .power → Plain arity .sum (left ++ operator.token :: tokens)

private theorem Plain.summands {tokens : List Token} (factor : Plain arity .signed tokens) :
    Summands arity tokens :=
  ⟨factor.sum_of_signed, fun _ _ sum other => sum.extend other factor⟩

/-- Scanning goes through a chain from left to right, as a sum is built. The induction is on
what is left of the chain, so it has to speak of any sum before it. -/
theorem Chain.scan {text : List Char} (chain : Chain text) :
    (∃ tokens, Summands arity tokens ∧ Token.scan text = .ok tokens) ∨
    ∃ fault, Token.scan text = .error fault ∧ fault.TooLarge text := by
  induction chain with
  | @operand lexeme operand =>
    have stops : ∀ first ∈ ([] : List Char).head?, isArithmetic first = true := nofun
    have scanned := operand.scan arity stops
    rw [List.append_nil, Token.scan_nil] at scanned
    rcases scanned with ⟨tokens, factor, scanned⟩ | failed
    · refine .inl ⟨tokens, factor.summands, ?_⟩
      rw [scanned, Except.map, List.append_nil]
    · exact .inr failed
  | @more lexeme key rest operand arithmetic chain ih =>
    have stops : ∀ first ∈ (key :: rest).head?, isArithmetic first = true := by
      intro first begins
      cases begins
      exact arithmetic
    rcases operand.scan arity stops with ⟨tokens, factor, scanned⟩ | ⟨fault, failed, large⟩
    · obtain ⟨operator, other, found⟩ := Token.first_arithmetic arithmetic chain.head?_ne_star
      rw [scanned, Token.scan_of_first found]
      rcases ih with ⟨others, summands, later⟩ | ⟨fault, failed, large⟩
      · rw [later]
        refine .inl ⟨_, ⟨summands.behind _ _ factor.sum_of_signed other, ?_⟩, rfl⟩
        intro left former sum notPower
        have summed := summands.behind _ _ (sum.extend notPower factor) other
        rwa [List.append_assoc] at summed
      · rw [failed]
        exact .inr ⟨fault, rfl, large.mono ⟨lexeme ++ [key], [], by simp⟩⟩
    · exact .inr ⟨fault, failed, large.mono ⟨[], key :: rest, rfl⟩⟩

end PocketCalc
