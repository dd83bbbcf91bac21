import PocketCalc.Proofs.CharacterClasses
import PocketCalc.Proofs.DecimalValue
import PocketCalc.Proofs.NumeralSpelling
import Mathlib.Data.List.Infix

/-! The lexemes of expressions, and how a text splits into them. Each lexeme is the longest
one in front of the text that is left, and whether its value is finite plays no part in how
long it is. -/

namespace PocketCalc

inductive Binary64.Rounded (exact : ℚ) : Binary64 → Prop
  | finite {magnitude} : Magnitude.Nearest exact magnitude → Rounded exact (.finite false magnitude)
  | infinite : Magnitude.overflow ≤ exact → Rounded exact (.infinite false)

theorem Binary64.ofDecimal_eq_iff {decimal : Decimal} {value : Binary64} :
    .ofDecimal false decimal = value ↔ Rounded decimal.units value := by
  unfold ofDecimal
  constructor
  · rintro rfl
    cases found : decimal.nearest? with
    | none => exact .infinite (Decimal.nearest?_eq_none_iff.mp found)
    | some magnitude => exact .finite (Decimal.nearest?_eq_some_iff.mp found)
  · intro rounded
    cases rounded with
    | finite nearest => rw [Decimal.nearest?_eq_some_iff.mpr nearest, ofMagnitude?]
    | infinite beyond => rw [Decimal.nearest?_eq_none_iff.mpr beyond, ofMagnitude?]

namespace Token

def isFinite : Token → Bool
  | .number value => value.isFinite
  | _ => true

def symbols : List (List Char × Token) :=
  [(['+'], .plus), (['-'], .minus), (['/'], .divide), (['*'], .multiply), (['*', '*'], .exponent),
    (['^'], .exponent), (['('], .openParen), ([')'], .closeParen)]

inductive Spelled : List Char → Token → Prop
  | atom {first others} : isAlphabetic first = true →
      (∀ character ∈ others, continuesAtom character = true) →
      Spelled (first :: others) (.atom (.ofList (first :: others)))
  | number {numeral : Numeral} {lexeme value} : numeral.Spells lexeme →
      Binary64.Rounded numeral.value.units value → Spelled lexeme (.number value)
  | symbol {lexeme token} : (lexeme, token) ∈ symbols → Spelled lexeme token

def Longest (lexeme rest : List Char) : Prop :=
  ∀ ⦃other token⦄, Spelled other token → other <+: lexeme ++ rest → other.length ≤ lexeme.length

/-- A text split from left to right into blanks and lexemes. -/
inductive Splits : List Char → List Token → Prop
  | done : Splits [] []
  | blank {character rest tokens} : isBlank character = true → Splits rest tokens →
      Splits (character :: rest) tokens
  | lexeme {lexeme token rest tokens} : Spelled lexeme token → Longest lexeme rest →
      token.isFinite = true → Splits rest tokens → Splits (lexeme ++ rest) (token :: tokens)

def kind : Token → CharacterClass
  | .atom _ => .letter
  | .number _ => .numeral
  | _ => .operator

theorem kind_of_symbol {lexeme : List Char} {token : Token} (member : (lexeme, token) ∈ symbols) :
    token.kind = .operator := by
  have all : ∀ symbol ∈ symbols, symbol.2.kind = .operator := by decide
  exact all _ member

theorem Spelled.exists_first {lexeme : List Char} {token : Token} (spelled : Spelled lexeme token) :
    ∃ first others, lexeme = first :: others ∧ token.kind.Contains first := by
  cases spelled with
  | atom letter => exact ⟨_, _, rfl, letter⟩
  | number spells => exact spells.exists_first
  | symbol member =>
    have all : ∀ symbol ∈ symbols, ∃ first others, symbol.1 = first :: others ∧
        symbol.2.kind.Contains first := by
      simp [symbols, kind, CharacterClass.Contains, ofOperator?]
    exact all _ member

/-- The first character of a text tells the kind of every lexeme in front of it. -/
theorem Spelled.kind_eq {lexeme rest others : List Char} {token : Token} {first : Char}
    {kind : CharacterClass} (spelled : Spelled lexeme token) (same : lexeme ++ rest = first :: others)
    (contained : kind.Contains first) : token.kind = kind := by
  obtain ⟨_, _, rfl, alternative⟩ := spelled.exists_first
  cases same
  exact contained.unique alternative

theorem Spelled.not_blank {lexeme rest others : List Char} {token : Token} {first : Char}
    (spelled : Spelled lexeme token) (same : lexeme ++ rest = first :: others) :
    isBlank first = false := by
  refine Bool.eq_false_iff.mpr fun blank => ?_
  have contained : CharacterClass.blank.Contains first := blank
  have kind := spelled.kind_eq same contained
  cases token <;> contradiction

private theorem Spelled.of_letter {lexeme : List Char} {token : Token}
    (spelled : Spelled lexeme token)
    (kind : token.kind = .letter) : token = .atom (.ofList lexeme) ∧
      ∀ character ∈ lexeme.tail, continuesAtom character = true := by
  cases spelled with
  | atom _ all => exact ⟨rfl, all⟩
  | number => contradiction
  | symbol member =>
    rw [kind_of_symbol member] at kind
    contradiction

theorem Spelled.of_numeral {lexeme : List Char} {token : Token} (spelled : Spelled lexeme token)
    (kind : token.kind = .numeral) : ∃ numeral : Numeral, numeral.Spells lexeme ∧
      token = .number (.ofDecimal false numeral.value) := by
  cases spelled with
  | atom => contradiction
  | number spells rounded => exact ⟨_, spells, by rw [Binary64.ofDecimal_eq_iff.mpr rounded]⟩
  | symbol member =>
    rw [kind_of_symbol member] at kind
    contradiction

private theorem Spelled.of_operator {lexeme : List Char} {token : Token}
    (spelled : Spelled lexeme token)
    (kind : token.kind = .operator) : (lexeme, token) ∈ symbols := by
  cases spelled with
  | atom | number => contradiction
  | symbol member => exact member

theorem Spelled.unique {lexeme : List Char} {token other : Token} (spelled : Spelled lexeme token)
    (alternative : Spelled lexeme other) : other = token := by
  obtain ⟨first, others, same, contained⟩ := spelled.exists_first
  have kind := alternative.kind_eq ((List.append_nil lexeme).trans same) contained
  cases spelled with
  | atom => exact (alternative.of_letter kind).1
  | number spells rounded =>
    obtain ⟨numeral, spells', rfl⟩ := alternative.of_numeral kind
    rw [spells.unique spells', Binary64.ofDecimal_eq_iff.mpr rounded]
  | symbol member =>
    have all : ∀ symbol ∈ symbols, ∀ other ∈ symbols, symbol.1 = other.1 → other.2 = symbol.2 := by
      decide
    exact all _ member _ (alternative.of_operator (kind.trans (kind_of_symbol member))) rfl

theorem Longest.unique {lexeme rest other after : List Char} {token alternative : Token}
    (spelled : Spelled lexeme token) (longest : Longest lexeme rest)
    (otherSpelled : Spelled other alternative) (otherLongest : Longest other after)
    (same : lexeme ++ rest = other ++ after) : other = lexeme ∧ alternative = token ∧ after = rest := by
  have length : lexeme.length = other.length :=
    le_antisymm (otherLongest spelled ⟨rest, same⟩) (longest otherSpelled ⟨after, same.symm⟩)
  obtain ⟨rfl, rfl⟩ := List.append_inj same length
  exact ⟨rfl, spelled.unique otherSpelled, rfl⟩

theorem Longest.whole (lexeme : List Char) : Longest lexeme [] := by
  intro other token _ before
  rw [List.append_nil] at before
  exact before.length_le

theorem Splits.isFinite {text : List Char} {tokens : List Token}
    (splits : Splits text tokens) : ∀ token ∈ tokens, token.isFinite = true := by
  induction splits with
  | done => exact List.forall_mem_nil _
  | blank _ _ ih => exact ih
  | lexeme _ _ finite _ ih => exact List.forall_mem_cons.mpr ⟨finite, ih⟩

inductive Front (text : List Char) : Except Fault (Option Token × List Char) → Prop
  | token {lexeme token rest} : text = lexeme ++ rest → Spelled lexeme token →
      Longest lexeme rest → token.isFinite = true → Front text (.ok (some token, rest))
  | tooLarge {lexeme token rest fault} : text = lexeme ++ rest → Spelled lexeme token →
      Longest lexeme rest → token.isFinite = false → Front text (.error fault)
  | blank {character rest} : text = character :: rest → isBlank character = true →
      Front text (.ok (none, rest))
  | foreign {fault} : (∀ character rest, text = character :: rest → isBlank character = false) →
      (∀ lexeme token rest, Spelled lexeme token → text ≠ lexeme ++ rest) → Front text (.error fault)

private theorem front_atom {first : Char} (letter : CharacterClass.letter.Contains first)
    (rest : List Char) : Front (first :: rest)
      (.ok (some (.atom (.ofList (first :: rest.takeWhile continuesAtom))),
        rest.dropWhile continuesAtom)) := by
  have whole : first :: rest =
      (first :: rest.takeWhile continuesAtom) ++ rest.dropWhile continuesAtom := by
    rw [List.cons_append, List.takeWhile_append_dropWhile]
  refine .token whole (.atom letter fun _ => List.mem_takeWhile_imp) ?_ rfl
  intro other token spelled before
  rw [← whole] at before
  obtain ⟨after, same⟩ := before
  have all := (spelled.of_letter (spelled.kind_eq same letter)).2
  obtain ⟨_, others, rfl, _⟩ := spelled.exists_first
  rw [List.cons_append, List.cons.injEq] at same
  rw [List.tail_cons] at all
  rw [← same.2, List.takeWhile_append_of_pos all]
  simp

private theorem front_numeral {first : Char} (begun : CharacterClass.numeral.Contains first)
    (rest : List Char) : Front (first :: rest)
      ((ofNumeral (Numeral.scan (first :: rest)).1).map fun token =>
        (some token, (Numeral.scan (first :: rest)).2)) := by
  unfold ofNumeral
  split
  next none =>
    refine .foreign ?_ ?_
    · intro character after same
      cases same
      refine Bool.eq_false_iff.mpr fun blank => ?_
      have blank : CharacterClass.blank.Contains first := blank
      exact absurd (begun.unique blank) (by decide)
    · intro lexeme token after spelled same
      obtain ⟨numeral, spells, _⟩ := spelled.of_numeral (spelled.kind_eq same.symm begun)
      apply spells.scan_digits_ne_nil after
      rw [← same]
      simpa using none
  next some =>
    obtain ⟨lexeme, whole, spelled⟩ := Numeral.scan_spells (by simpa using some)
    have number := Spelled.number spelled (Binary64.ofDecimal_eq_iff.mp rfl)
    have longest : Longest lexeme (Numeral.scan (first :: rest)).2 := by
      intro other token alternative before
      rw [← whole] at before
      obtain ⟨after, same⟩ := before
      obtain ⟨numeral, spells, _⟩ := alternative.of_numeral (alternative.kind_eq same begun)
      have least := spells.scan_rest_le after
      rw [same] at least
      have lengths := congrArg List.length (same.trans whole)
      simp only [List.length_append] at lengths
      omega
    dsimp only
    split
    next finite => exact .token whole number longest finite
    next infinite => exact .tooLarge whole number longest (Bool.eq_false_iff.mpr infinite)

/-- A numeral is a token, unless its value is beyond every number. -/
theorem ofNumeral_eq_or {numeral : Numeral} {lexeme : List Char} (spells : numeral.Spells lexeme) :
    (∃ magnitude, ofNumeral numeral = .ok (.number (.finite false magnitude))) ∨
      ofNumeral numeral = .error (.invalidNumber (.ofList numeral.text)) ∧
        Magnitude.overflow ≤ numeral.value.units := by
  have present := spells.scan_digits_ne_nil []
  rw [List.append_nil, spells.scan_whole] at present
  have rounded := Binary64.ofDecimal_eq_iff.mp (Eq.refl (Binary64.ofDecimal false numeral.value))
  unfold ofNumeral
  rw [if_neg (by simpa using present)]
  generalize Binary64.ofDecimal false numeral.value = value at rounded ⊢
  cases rounded with
  | finite => exact .inl ⟨_, rfl⟩
  | infinite beyond => exact .inr ⟨rfl, beyond⟩

private theorem length_le_of_symbol {lexeme : List Char} {token : Token}
    (member : (lexeme, token) ∈ symbols) : lexeme.length ≤ 1 ∨ lexeme = ['*', '*'] := by
  have all : ∀ symbol ∈ symbols, symbol.1.length ≤ 1 ∨ symbol.1 = ['*', '*'] := by decide
  exact all _ member

private theorem Longest.of_symbol {lexeme rest : List Char} {first : Char}
    (operator : CharacterClass.operator.Contains first) (begun : ∃ others, lexeme = first :: others)
    (taken : lexeme = ['*', '*'] ∨ ∀ after, lexeme ++ rest ≠ '*' :: '*' :: after) :
    Longest lexeme rest := by
  intro other token spelled before
  obtain ⟨others, rfl⟩ := begun
  obtain ⟨after, same⟩ := before
  obtain short | rfl := length_le_of_symbol (spelled.of_operator (spelled.kind_eq same operator))
  · exact short.trans (Nat.succ_le_succ (Nat.zero_le _))
  · obtain double | single := taken
    · rw [double]
    · exact absurd same.symm (single after)

theorem Spelled.splits {lexeme : List Char} {token : Token} (spelled : Spelled lexeme token)
    (finite : token.isFinite = true) : Splits lexeme [token] := by
  have splits := Splits.lexeme spelled (.whole lexeme) finite .done
  rwa [List.append_nil] at splits

theorem Splits.minus {text : List Char} {tokens : List Token} (splits : Splits text tokens) :
    Splits ('-' :: text) (.minus :: tokens) := by
  have operator : CharacterClass.operator.Contains '-' := rfl
  have longest : Longest ['-'] text := by
    refine .of_symbol operator ⟨_, rfl⟩ (.inr fun after same => ?_)
    cases same
  exact .lexeme (.symbol (by decide)) longest rfl splits

private theorem mem_symbols_of_operator {character : Char} {token : Token}
    (found : ofOperator? character = some token) : ([character], token) ∈ symbols := by
  unfold ofOperator? at found
  split at found <;> cases found <;> decide

private theorem isFinite_of_symbol {lexeme : List Char} {token : Token}
    (member : (lexeme, token) ∈ symbols) : token.isFinite = true := by
  have all : ∀ symbol ∈ symbols, symbol.2.isFinite = true := by decide
  exact all _ member

private theorem eq_star {character : Char} (found : ofOperator? character = some .multiply) :
    character = '*' := by
  unfold ofOperator? at found
  split at found <;> first | rfl | contradiction

theorem first_front (character : Char) (rest : List Char) :
    Front (character :: rest) (first character rest) := by
  unfold first
  split
  next letter => exact front_atom letter rest
  next notLetter =>
    split
    next begun => exact front_numeral (by simpa [CharacterClass.Contains] using begun) rest
    next notNumeral =>
      split
      next after star =>
        obtain rfl := eq_star star
        have whole : '*' :: '*' :: after = ['*', '*'] ++ after := rfl
        refine .token whole (.symbol (by decide)) ?_ rfl
        exact .of_symbol (Option.isSome_of_eq_some star) ⟨_, rfl⟩ (.inl rfl)
      next token found single =>
        have member := mem_symbols_of_operator found
        refine .token (List.singleton_append).symm (.symbol member) ?_ (isFinite_of_symbol member)
        refine .of_symbol (Option.isSome_of_eq_some found) ⟨_, rfl⟩ (.inr fun after same => ?_)
        cases same
        exact single after rfl (Option.some.inj found).symm
      next none =>
        split
        next blank => exact .blank rfl blank
        next notBlank =>
          refine .foreign ?_ ?_
          · intro character after same
            cases same
            exact Bool.eq_false_iff.mpr notBlank
          · intro lexeme token after spelled same
            -- A lexeme would begin with a character of one of the four classes.
            obtain ⟨first, others, rfl, contained⟩ := spelled.exists_first
            cases same
            cases kind : token.kind <;> rw [kind] at contained
            · exact notLetter contained
            · exact notNumeral (by simpa [CharacterClass.Contains] using contained)
            · exact absurd contained (by simp [CharacterClass.Contains, none])
            · exact notBlank contained

private theorem Front.eq_ok_of_lexeme {lexeme rest : List Char} {token : Token}
    {outcome : Except Fault (Option Token × List Char)} (front : Front (lexeme ++ rest) outcome)
    (spelled : Spelled lexeme token) (longest : Longest lexeme rest)
    (finite : token.isFinite = true) : outcome = .ok (some token, rest) := by
  cases front with
  | token same otherSpelled otherLongest =>
    obtain ⟨rfl, rfl, rfl⟩ := longest.unique spelled otherSpelled otherLongest same
    rfl
  | tooLarge same otherSpelled otherLongest infinite =>
    obtain ⟨rfl, rfl, rfl⟩ := longest.unique spelled otherSpelled otherLongest same
    exact absurd finite (Bool.eq_false_iff.mp infinite)
  | blank same blank => exact absurd blank (Bool.eq_false_iff.mp (spelled.not_blank same))
  | foreign _ none => exact absurd rfl (none lexeme token rest spelled)

private theorem Front.eq_ok_of_blank {character : Char} {rest : List Char}
    {outcome : Except Fault (Option Token × List Char)} (front : Front (character :: rest) outcome)
    (blank : isBlank character = true) : outcome = .ok (none, rest) := by
  cases front with
  | token same spelled | tooLarge same spelled =>
    exact absurd blank (Bool.eq_false_iff.mp (spelled.not_blank same.symm))
  | blank same =>
    cases same
    rfl
  | foreign notBlank => exact absurd blank (Bool.eq_false_iff.mp (notBlank _ _ rfl))

theorem scan_blank {character : Char} {rest : List Char} (blank : isBlank character = true) :
    scan (character :: rest) = scan rest := by
  rw [scan_cons, (first_front character rest).eq_ok_of_blank blank]
  change (scan rest).map ([] ++ ·) = scan rest
  cases scan rest <;> rfl

theorem scan_lexeme {lexeme rest : List Char} {token : Token} (spelled : Spelled lexeme token)
    (longest : Longest lexeme rest) (finite : token.isFinite = true) :
    scan (lexeme ++ rest) = (scan rest).map (token :: ·) := by
  obtain ⟨first, others, same, _⟩ := spelled.exists_first
  have front := first_front first (others ++ rest)
  rw [← List.cons_append, ← same] at front
  rw [same, List.cons_append, scan_cons, front.eq_ok_of_lexeme spelled longest finite]
  rfl

theorem Splits.scan {text : List Char} {tokens : List Token} (splits : Splits text tokens) :
    Token.scan text = .ok tokens := by
  induction splits with
  | done => exact scan_nil
  | blank blank _ ih => rw [scan_blank blank, ih]
  | lexeme spelled longest finite _ ih =>
    rw [scan_lexeme spelled longest finite, ih]
    rfl

theorem Splits.of_scan {text : List Char} {tokens : List Token}
    (success : Token.scan text = .ok tokens) : Splits text tokens := by
  match text with
  | [] =>
    rw [scan_nil] at success
    cases success
    exact .done
  | character :: rest =>
    rw [scan_cons] at success
    have front := first_front character rest
    cases found : first character rest with
    | error fault =>
      rw [found] at success
      cases success
    | ok outcome =>
      obtain ⟨token, after⟩ := outcome
      have shorter := first_rest_length found
      rw [found] at front success
      simp only [Except.bind] at success
      cases scanned : Token.scan after with
      | error fault =>
        rw [scanned] at success
        cases success
      | ok others =>
        rw [scanned] at success
        cases success
        -- What the first step leaves is shorter, so it splits already.
        have splits := Splits.of_scan scanned
        cases front with
        | token same spelled longest finite =>
          rw [same]
          exact .lexeme spelled longest finite splits
        | blank same blank =>
          cases same
          exact .blank blank splits
termination_by text.length
decreasing_by exact Nat.lt_succ_of_le shorter

/-- A text is scanned into tokens exactly if it splits into lexemes of these tokens, in their
order and with only blanks between, each the longest in front of what is left. -/
theorem scan_eq_ok_iff_splits (text : String) (tokens : List Token) :
    Token.scan text.toList = .ok tokens ↔ Splits text.toList tokens :=
  ⟨.of_scan, Splits.scan⟩

end Token
end PocketCalc
