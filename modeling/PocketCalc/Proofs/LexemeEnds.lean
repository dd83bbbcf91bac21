import PocketCalc.Expr.Basic
import PocketCalc.Proofs.Lexemes

/-! Where lexemes end. A numeral ends in a digit or a point and goes on with nothing but digits,
points and marks; only behind its mark may it have a sign. A sign after a text therefore begins a
lexeme of its own, unless the text ends in a numeral and a mark. -/

namespace PocketCalc
namespace Numeral

variable {numeral other : Numeral} {lexeme rest before after : List Char}

theorem Spells.last (spells : numeral.Spells lexeme) :
    ∀ last ∈ lexeme.getLast?, last.isDigit = true ∨ last = '.' := by
  obtain @⟨whole, fraction, pointed, exponent, marked, all, fractional, -, exponential⟩ := spells
  intro last ends
  cases exponential with
  | @marked mark sign digits _ present digital =>
    rw [List.append_cons, ← List.append_assoc, ← List.append_assoc, Option.mem_def,
      List.getLast?_append_of_ne_nil _ present] at ends
    exact .inl (digital last (List.mem_of_getLast? ends))
  | absent =>
    have member := List.mem_of_getLast? ends
    simp only [List.append_nil, List.mem_append] at member
    rcases member with inWhole | inPointed
    · exact .inl (all last inWhole)
    · cases fractional with
      | absent => cases inPointed
      | point digital => exact (List.mem_cons.mp inPointed).symm.imp_left (digital last)

private theorem sign_not_digit (sign : Sign) : sign.char.isDigit = false := by cases sign <;> rfl

/-- A numeral has no sign but that of its exponent, which stands behind the mark. -/
theorem Spells.before_sign {sign : Sign} (spells : numeral.Spells (before ++ sign.char :: after)) :
    ∃ coefficient mark, before = coefficient ++ [mark] ∧ (mark = 'e' ∨ mark = 'E') ∧
      Spells { numeral with exponent := none } coefficient := by
  generalize same : before ++ sign.char :: after = text at spells
  obtain @⟨whole, fraction, pointed, exponent, marked, all, fractional, present, exponential⟩ :=
    spells
  have notDigit {digits : List Char} (digital : Digits digits) : sign.char ∉ digits := by
    intro member
    exact Bool.eq_false_iff.mp (sign_not_digit sign) (digital _ member)
  have notPointed : sign.char ∉ pointed := by
    cases fractional with
    | absent => exact List.not_mem_nil
    | point digital =>
      refine List.not_mem_cons_of_ne_of_not_mem ?_ (notDigit digital)
      cases sign <;> decide
  have member : sign.char ∈ whole ++ (pointed ++ marked) := by simp [← same]
  have inMarked : sign.char ∈ marked := by
    simpa [notDigit all, notPointed] using member
  cases exponential with
  | absent => cases inMarked
  | @marked mark signed digits isMark _ digital =>
    have notMark : sign.char ≠ mark := by
      rcases isMark with rfl | rfl <;> cases sign <;> decide
    cases signed with
    | none => simp [notMark, notDigit digital] at inMarked
    | some signed =>
      have notBefore : sign.char ∉ whole ++ pointed ++ [mark] := by
        simp [notDigit all, notPointed, notMark]
      have same : whole ++ pointed ++ [mark] ++ signed.char :: digits =
          before ++ sign.char :: after := by simp [same]
      obtain ⟨split, -, -⟩ :=
        (List.append_cons_inj_of_notMem notBefore (notDigit digital)).mp same
      have coefficient := Spells.parts all fractional present .absent
      rw [List.append_nil] at coefficient
      exact ⟨whole ++ pointed, mark, split.symm, isMark, coefficient⟩

/-- Whether a character may go on with a numeral that could end before it. -/
def continues (character : Char) : Bool := character.isDigit || ['.', 'e', 'E'].contains character

private theorem Spells.continues_of_longer {next : Char} (spells : numeral.Spells lexeme)
    (longer : other.Spells (lexeme ++ next :: rest)) : continues next = true := by
  have final (sign : Sign) (same : next = sign.char) : False := by
    subst same
    obtain ⟨coefficient, mark, rfl, isMark, -⟩ := longer.before_sign
    have ends := spells.last mark List.getLast?_concat
    rcases isMark with rfl | rfl <;> simp at ends
  rcases longer.characters next (by simp) with digit | mark
  · simp [continues, digit]
  · simp only [List.mem_cons, List.not_mem_nil, or_false] at mark
    rcases mark with rfl | rfl | rfl | rfl | rfl
    · rfl
    · rfl
    · rfl
    · exact (final .plus rfl).elim
    · exact (final .minus rfl).elim

/-- A numeral is scanned as it is spelled if what follows cannot go on with it. -/
theorem Spells.scan_stop (spells : numeral.Spells lexeme)
    (stops : ∀ first ∈ rest.head?, continues first = false) :
    scan (lexeme ++ rest) = (numeral, rest) := by
  rcases spells.scan_append rest with exact | ⟨digits, shorter⟩
  · exact exact
  · obtain ⟨longer, whole, spelled⟩ := scan_spells digits
    generalize (scan (lexeme ++ rest)).1 = other at spelled
    generalize (scan (lexeme ++ rest)).2 = left at whole shorter
    have lengths := congrArg List.length whole
    simp only [List.length_append] at lengths
    have within : lexeme <+: longer :=
      List.prefix_of_prefix_length_le ⟨rest, whole⟩ (List.prefix_append longer left) (by omega)
    obtain ⟨more, rfl⟩ := within
    rw [List.append_assoc, List.append_cancel_left_eq] at whole
    cases more with
    | nil => simp [whole] at shorter
    | cons next more =>
      have goes := spells.continues_of_longer spelled
      rw [stops next (by simp [whole])] at goes
      contradiction

end Numeral

def Operator.key : Operator → Char
  | .plus => '+'
  | .minus => '-'
  | .times => '*'
  | .over => '/'
  | .power => '^'

namespace Token

/-- A text whose lexemes end in a numeral without an exponent and a mark alone, so that a sign
and digits behind it would make it an exponent. -/
inductive OpensExponent : List Char → Prop
  | mark {numeral : Numeral} {coefficient mark} : numeral.Spells coefficient →
      numeral.exponent = none → mark = 'e' ∨ mark = 'E' → OpensExponent (coefficient ++ [mark])
  | blank {character rest} : isBlank character = true → OpensExponent rest →
      OpensExponent (character :: rest)
  | lexeme {lexeme token rest} : Spelled lexeme token → Longest lexeme rest →
      OpensExponent rest → OpensExponent (lexeme ++ rest)

theorem OpensExponent.exists_last {text : List Char} (opens : OpensExponent text) :
    ∃ mark, text.getLast? = some mark ∧ (mark = 'e' ∨ mark = 'E') := by
  induction opens with
  | mark _ _ isMark => exact ⟨_, List.getLast?_concat, isMark⟩
  | blank _ _ ih | lexeme _ _ _ ih =>
    obtain ⟨mark, ends, isMark⟩ := ih
    exact ⟨mark, by simp [List.getLast?_cons, List.getLast?_append, ends], isMark⟩

variable {lexeme rest : List Char} {token : Token}

theorem scan_of_first {character : Char} {after : List Char}
    (found : first character rest = .ok (some token, after)) :
    scan (character :: rest) = (scan after).map (token :: ·) := by
  rw [scan_cons, found]
  rfl

theorem scan_numeral {numeral : Numeral} (spells : numeral.Spells lexeme)
    (stops : ∀ first ∈ rest.head?, Numeral.continues first = false) :
    scan (lexeme ++ rest) =
      (ofNumeral numeral).bind fun token => (scan rest).map (token :: ·) := by
  have scanned := spells.scan_stop stops
  obtain ⟨character, others, rfl, begun⟩ := spells.exists_first
  have notLetter : ¬ isAlphabetic character = true := CharacterClass.not_letter_of_numeral begun
  rw [List.cons_append] at scanned ⊢
  rw [scan_cons]
  unfold first
  rw [if_neg notLetter, if_pos (by simpa using begun), scanned]
  dsimp only
  cases ofNumeral numeral <;> rfl

/-- The character of an operator is a lexeme, be it a star, if no star follows it. -/
theorem first_operator (operator : Operator) (single : rest.head? ≠ some '*') :
    first operator.key rest = .ok (some operator.token, rest) := by
  match operator with
  | .plus | .minus | .over | .power => rfl
  | .times =>
    cases rest with
    | nil => rfl
    | cons next after =>
      unfold first
      rw [if_neg (by decide), if_neg (by decide)]
      split
      next double =>
        cases double
        exact absurd rfl single
      next found _ =>
        cases found
        rfl
      next found => cases found

theorem Longest.of_numeral {numeral : Numeral} (spells : numeral.Spells lexeme)
    (stops : ∀ first ∈ rest.head?, Numeral.continues first = false) : Longest lexeme rest := by
  intro other token spelled before
  obtain ⟨first, others, rfl, begun⟩ := spells.exists_first
  obtain ⟨after, same⟩ := before
  have kind : token.kind = .numeral := spelled.kind_eq (same.trans List.cons_append) begun
  obtain ⟨longer, spells', -⟩ := spelled.of_numeral kind
  have least := spells'.scan_rest_le after
  rw [same, spells.scan_stop stops] at least
  dsimp only at least
  have lengths := congrArg List.length same
  simp only [List.length_append] at lengths
  omega

/-- The only lexemes with a sign behind other characters are numerals with an exponent. -/
theorem Spelled.opensExponent_of_sign {before after : List Char} {sign : Sign}
    (spelled : Spelled (before ++ sign.char :: after) token) (present : before ≠ []) :
    OpensExponent before := by
  generalize same : before ++ sign.char :: after = text at spelled
  cases spelled with
  | @atom first others _ all =>
    obtain ⟨begun, others', rfl⟩ := List.exists_cons_of_ne_nil present
    obtain ⟨-, rfl⟩ := List.cons.inj same
    have continued := all sign.char (by simp)
    have ended : continuesAtom sign.char = false := by cases sign <;> decide
    rw [ended] at continued
    contradiction
  | number spells =>
    rw [← same] at spells
    obtain ⟨coefficient, mark, rfl, isMark, plain⟩ := spells.before_sign
    exact .mark plain rfl isMark
  | symbol member =>
    have noSign : ∀ symbol ∈ symbols, sign.char ∉ symbol.1.tail := by cases sign <;> decide
    obtain ⟨begun, others, rfl⟩ := List.exists_cons_of_ne_nil present
    subst same
    exact absurd (by simp) (noSign _ member)

private theorem Longest.before_sign (longest : Longest lexeme rest) (spelled : Spelled lexeme token)
    (closed : ¬ OpensExponent (lexeme ++ rest)) (sign : Sign) (more : List Char) :
    Longest lexeme (rest ++ sign.char :: more) := by
  intro other alternative otherSpelled before
  rw [← List.append_assoc] at before
  rcases List.prefix_or_prefix_of_prefix before (List.prefix_append _ _) with within | beyond
  · exact longest otherSpelled within
  · obtain ⟨extra, rfl⟩ := beyond
    rw [List.prefix_append_right_inj] at before
    cases extra with
    | nil => exact longest otherSpelled (by simp)
    | cons first extra =>
      obtain rfl : first = sign.char := (List.cons_prefix_cons.mp before).1
      have present : lexeme ++ rest ≠ [] := by
        obtain ⟨first, others, rfl, -⟩ := spelled.exists_first
        exact List.cons_ne_nil _ _
      exact absurd (otherSpelled.opensExponent_of_sign present) closed

/-- A sign behind a text is a lexeme of its own, unless it would be that of an exponent. -/
theorem Splits.scan_sign {text : List Char} {tokens : List Token} (splits : Splits text tokens)
    (closed : ¬ OpensExponent text) (sign : Sign) (more : List Char) :
    Token.scan (text ++ sign.char :: more) =
      (Token.scan (sign.char :: more)).map (tokens ++ ·) := by
  induction splits with
  | done => exact (congrFun Except.map_id _).symm
  | @blank character rest tokens blank _ ih =>
    rw [List.cons_append, scan_blank blank]
    exact ih fun opens => closed (.blank blank opens)
  | @lexeme lexeme token rest tokens spelled longest finite _ ih =>
    have rest := ih fun opens => closed (.lexeme spelled longest opens)
    rw [List.append_assoc, scan_lexeme spelled (longest.before_sign spelled closed sign more) finite,
      rest]
    cases Token.scan (sign.char :: more) <;> rfl

end Token
end PocketCalc
