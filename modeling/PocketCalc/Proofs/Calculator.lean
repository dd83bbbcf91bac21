import PocketCalc.Calculator
import PocketCalc.Proofs.Lexemes
import PocketCalc.Proofs.Parsing

/-! From the text of an expression to its value, with the scanner and the reader replaced by
the lexemes and the grammar they are exact for. -/

namespace PocketCalc

variable {σ : Type} {environment : Environment σ} {before after : σ}

theorem Environment.evaluateText_eq_ok_iff {text : String} {value : Binary64} :
    environment.evaluateText text before = (.ok value, after) ↔
      ∃ tokens expr, Token.Splits text.toList tokens ∧
        Derives environment.arity .sum tokens expr ∧ expr.nesting ≤ Expr.nestingLimit ∧
        Evaluates environment expr before value after := by
  unfold evaluateText
  cases scanned : Token.scan text.toList with
  | error fault =>
    constructor
    · intro impossible
      cases impossible
    · rintro ⟨_, _, splits, _⟩
      rw [splits.scan] at scanned
      cases scanned
  | ok tokens =>
    have same {others : List Token} (splits : Token.Splits text.toList others) :
        others = tokens := by
      rw [splits.scan] at scanned
      exact Except.ok.inj scanned
    constructor
    · intro success
      obtain ⟨expr, derivation⟩ := parse_eq_ok_iff.mp success
      exact ⟨tokens, expr, .of_scan scanned, derivation⟩
    · rintro ⟨others, expr, splits, derivation⟩
      obtain rfl := same splits
      exact parse_eq_ok_iff.mpr ⟨expr, derivation⟩

theorem evaluate_eq_ok_iff {text : String} {mode : AngleMode} {value : Binary64} :
    evaluate text mode = .ok value ↔
      ∃ tokens expr, Token.Splits text.toList tokens ∧
        Derives Environment.standardArity .sum tokens expr ∧ expr.nesting ≤ Expr.nestingLimit ∧
        Evaluates (.standard mode) expr () value () := by
  rw [show Environment.standardArity = (Environment.standard mode).arity from rfl,
    ← Environment.evaluateText_eq_ok_iff]
  exact ⟨fun success => Prod.ext success rfl, congrArg Prod.fst⟩

theorem evaluate_of_scan {text : String} {tokens : List Token} {expr : Expr} {mode : AngleMode}
    (scanned : Token.scan text.toList = .ok tokens)
    (derived : Derives Environment.standardArity .sum tokens expr)
    (shallow : expr.nesting ≤ Expr.nestingLimit) :
    evaluate text mode = (expr.evaluate (.standard mode) ()).1 := by
  have read : Expr.ofTokens (Environment.standard mode).arity tokens = .ok expr :=
    Expr.ofTokens_eq_ok_iff.mpr ⟨derived, shallow⟩
  unfold evaluate Environment.evaluateText
  rw [scanned]
  dsimp only
  rw [read]
  rfl

theorem evaluate_of_fault {text : String} {fault : Fault} {mode : AngleMode}
    (scanned : Token.scan text.toList = .error fault) : evaluate text mode = .error fault := by
  unfold evaluate Environment.evaluateText
  rw [scanned]
  rfl

/-- An atom without a meaning in front of everything else is what is reported. -/
theorem Expr.ofTokens_of_unknown {arity : String → Option Nat} {name : String}
    (unknown : arity name = none) (rest : List Token) :
    ofTokens arity (.atom name :: rest) = .error (.here (.unknownAtom name)) := by
  simp [ofTokens, Level.remaining, Level.around, Reader.chain, Level.signedReader,
    Level.powerReader, Level.primaryReader, Level.readPrimary, unknown]

end PocketCalc
