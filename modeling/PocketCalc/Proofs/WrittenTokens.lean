import PocketCalc.Proofs.LexicalFaults
import PocketCalc.Proofs.SeparatingBlanks
import PocketCalc.Proofs.ShortestDigits

/-! Tokens that are written out with a space between any two are scanned as they were. Each is
written as a lexeme of its own, a number with its shortest digits, and a space ends every
lexeme. -/

namespace PocketCalc

private theorem Binary64.text_of_unsigned (magnitude : Magnitude) :
    (Binary64.finite false magnitude).text = magnitude.shortest.positional := by
  rw [text, withMinus, if_neg Bool.false_ne_true]

/-- Without a sign, a number is written as a numeral that is rounded to it. -/
theorem Magnitude.exists_numeral_text (magnitude : Magnitude) : ∃ numeral : Numeral,
    numeral.Spells (Binary64.finite false magnitude).text ∧
      Nearest numeral.value.units magnitude := by
  obtain ⟨numeral, spells, value⟩ := Decimal.positional_writes magnitude.shortest
  have same : numeral.value.units = magnitude.shortest.units := by
    unfold Decimal.units
    rw [value]
  rw [Binary64.text_of_unsigned]
  refine ⟨numeral, spells, ?_⟩
  rw [same]
  exact magnitude.nearest_shortest

namespace Token

/-- How a token is written: a symbol by its characters, which are either of two for a power, an
atom by its name, and a number by its shortest digits, never in scientific form. -/
inductive Written : Token → String → Prop
  | symbol {token characters} : (characters, token) ∈ symbols → Written token (.ofList characters)
  | atom (name : String) : Written (.atom name) name
  | number (value : Binary64) : Written (.number value) (toString value)

private theorem Written.spelled {token : Token} {text : String} (written : Written token text)
    (scannable : token.Scannable) : Spelled text.toList token := by
  cases written with
  | symbol member =>
    rw [String.toList_ofList]
    exact .symbol member
  | atom name =>
    obtain ⟨first, others, same, letter, all⟩ := scannable
    have spelled := Spelled.atom letter all
    rwa [← same, String.ofList_toList] at spelled
  | number value =>
    obtain ⟨magnitude, rfl⟩ := scannable
    obtain ⟨numeral, spells, nearest⟩ := magnitude.exists_numeral_text
    change Spelled (String.ofList _).toList _
    rw [String.toList_ofList]
    exact .number spells (.finite nearest)

private theorem Scannable.isFinite {token : Token} (scannable : token.Scannable) :
    token.isFinite = true := by
  cases token with
  | number value =>
    obtain ⟨magnitude, rfl⟩ := scannable
    rfl
  | _ => rfl

theorem Written.scan {token : Token} {text : String} (written : Written token text)
    (scannable : token.Scannable) : scan text.toList = .ok [token] :=
  ((written.spelled scannable).splits scannable.isFinite).scan

/-- Numbers without a sign, identifiers and symbols that are written out, with a space between any
two, are scanned as they were. -/
theorem written_tokens_are_scanned {tokens : List Token} {texts : List String}
    (scannable : ∀ token ∈ tokens, token.Scannable) (written : List.Forall₂ Written tokens texts) :
    Token.scan (" ".intercalate texts).toList = .ok tokens := by
  induction written with
  | nil => exact scan_nil
  | @cons token text tokens texts first written ih =>
    obtain ⟨alone, others⟩ := List.forall_mem_cons.mp scannable
    have front := first.scan alone
    cases written with
    | nil => rw [String.intercalate_singleton, front]
    | @cons _ next _ later =>
      have whole : (" ".intercalate (text :: next :: later)).toList =
          text.toList ++ ' ' :: (" ".intercalate (next :: later)).toList := by
        simp [String.intercalate_cons_cons]
      rw [whole, scan_append_blank (by decide), front, ih others]
      rfl

private theorem scannable_ofDecimal {decimal : Decimal}
    (finite : (Binary64.ofDecimal false decimal).isFinite = true) :
    (Token.number (.ofDecimal false decimal)).Scannable := by
  have rounded := Binary64.ofDecimal_eq_iff.mp (Eq.refl (Binary64.ofDecimal false decimal))
  generalize Binary64.ofDecimal false decimal = value at finite rounded ⊢
  cases rounded with
  | finite => exact ⟨_, rfl⟩
  | infinite => contradiction

/-- Without the spaces the power would come before the product, and the identifier would be the
exponent of the number before it. -/
theorem written_tokens_are_scanned_in_front_of_digits :
    let tenth := Binary64.ofDecimal false ⟨1, -1⟩
    let large := Binary64.ofDecimal false ⟨1, 22⟩
    let tokens : List Token :=
      [.number tenth, .multiply, .exponent, .number large, .atom "e3", .exponent]
    let texts := [toString tenth, "*", "**", toString large, "e3", "^"]
    (∀ token ∈ tokens, token.Scannable) ∧ List.Forall₂ Written tokens texts ∧
    " ".intercalate texts = "0.1 * ** 10000000000000000000000 e3 ^" ∧
    Token.scan (" ".intercalate texts).toList = .ok tokens := by
  intro tenth large tokens texts
  have finite : tenth.isFinite = true ∧ large.isFinite = true := by decide +kernel
  have scannable : ∀ token ∈ tokens, token.Scannable := by
    have identifier : (Token.atom "e3").Scannable :=
      ⟨'e', ['3'], rfl, by decide, List.forall_mem_singleton.mpr (by decide)⟩
    simp only [tokens, List.forall_mem_cons]
    exact ⟨scannable_ofDecimal finite.1, trivial, trivial, scannable_ofDecimal finite.2,
      identifier, trivial, List.forall_mem_nil _⟩
  have written : List.Forall₂ Written tokens texts :=
    .cons (.number tenth) <| .cons (@Written.symbol .multiply ['*'] (by decide)) <|
      .cons (@Written.symbol .exponent ['*', '*'] (by decide)) <| .cons (.number large) <|
      .cons (.atom "e3") <| .cons (@Written.symbol .exponent ['^'] (by decide)) .nil
  have joined : " ".intercalate texts = "0.1 * ** 10000000000000000000000 e3 ^" := by
    decide +kernel
  exact ⟨scannable, written, joined, written_tokens_are_scanned scannable written⟩

end Token
end PocketCalc
