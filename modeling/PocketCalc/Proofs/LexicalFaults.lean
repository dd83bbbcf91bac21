import PocketCalc.Proofs.CheckedScanning

/-! What scanning can end with. Its tokens are numbers without a sign, identifiers and symbols,
and its faults quote a lone point, a numeral beyond every number, or characters that belong to no
lexeme. -/

namespace PocketCalc

/-- The tokens that a scan can give: its numbers have no sign, and its atoms are identifiers. -/
def Token.Scannable : Token → Prop
  | .number value => ∃ magnitude, value = .finite false magnitude
  | .atom name => ∃ first others, name.toList = first :: others ∧ isAlphabetic first = true ∧
      ∀ character ∈ others, continuesAtom character = true
  | _ => True

/-- The faults that a scan of a text can end with. A numeral is quoted with a small mark before
its exponent. -/
inductive Fault.Lexical (text : List Char) : Fault → Prop
  | point : '.' ∈ text → Lexical text (.invalidNumber ".")
  | tooLarge {numeral : Numeral} {lexeme} : lexeme <:+: text → numeral.Spells lexeme →
      numeral.Spells numeral.text → Magnitude.overflow ≤ numeral.value.units →
      Lexical text (.invalidNumber (.ofList numeral.text))
  | unknown {piece} : piece <:+: text → piece ≠ [] →
      (∀ character ∈ piece, isBlank character = false ∧ Token.ofOperator? character = none ∧
        character.isDigit = false) →
      Lexical text (.unrecognizedToken (.ofList piece))

theorem Fault.Lexical.mono {text longer : List Char} {fault : Fault} (lexical : fault.Lexical text)
    (within : text <:+: longer) : fault.Lexical longer := by
  cases lexical with
  | point member => exact .point (within.subset member)
  | tooLarge inside spells normal beyond =>
    exact .tooLarge (inside.trans within) spells normal beyond
  | unknown inside present foreign => exact .unknown (inside.trans within) present foreign

/-- The reports of the reader of numbers are in words, of which a numeral has none. -/
theorem Fault.Lexical.ne_readFault {text : List Char} {fault : Fault} (lexical : fault.Lexical text)
    (other : ReadFault) : fault ≠ .invalidNumber other.message := by
  rintro rfl
  have letter : 'a' ∈ other.message.toList := by cases other <;> decide
  generalize same : Fault.invalidNumber other.message = fault at lexical
  cases lexical with
  | point =>
    rw [Fault.invalidNumber.inj same] at letter
    contradiction
  | tooLarge _ _ spells =>
    rw [Fault.invalidNumber.inj same, String.toList_ofList] at letter
    rcases spells.characters 'a' letter with digit | mark <;> contradiction
  | unknown => cases same

namespace Token

private theorem Spelled.scannable {lexeme : List Char} {token : Token}
    (spelled : Spelled lexeme token) (finite : token.isFinite = true) : token.Scannable := by
  cases spelled with
  | atom letter all => exact ⟨_, _, String.toList_ofList, letter, all⟩
  | number _ rounded =>
    cases rounded with
    | finite => exact ⟨_, rfl⟩
    | infinite => contradiction
  | symbol member =>
    have operator := kind_of_symbol member
    cases token with
    | atom | number => contradiction
    | _ => trivial

theorem Splits.scannable {text : List Char} {tokens : List Token} (splits : Splits text tokens) :
    ∀ token ∈ tokens, token.Scannable := by
  induction splits with
  | done => exact List.forall_mem_nil _
  | blank _ _ ih => exact ih
  | lexeme spelled _ finite _ ih => exact List.forall_mem_cons.mpr ⟨spelled.scannable finite, ih⟩

private theorem lexical_of_numeral {first : Char} {rest : List Char} {fault : Fault}
    (begun : first.isDigit = true ∨ first = '.')
    (failed : ofNumeral (Numeral.scan (first :: rest)).1 = .error fault) :
    fault.Lexical (first :: rest) := by
  by_cases none : (Numeral.scan (first :: rest)).1.digits = []
  · obtain ⟨rfl, point⟩ := Numeral.scan_of_no_digits begun none
    rw [ofNumeral, none, List.isEmpty_nil, if_pos rfl, point] at failed
    cases failed
    exact .point List.mem_cons_self
  · obtain ⟨lexeme, whole, spells⟩ := Numeral.scan_spells none
    obtain ⟨_, found⟩ | ⟨large, beyond⟩ := ofNumeral_eq_or spells
    · rw [found] at failed
      cases failed
    · rw [large] at failed
      cases failed
      refine .tooLarge ?_ spells spells.spells_text beyond
      rw [whole]
      exact (List.prefix_append _ _).isInfix

private theorem lexical_of_foreign {character : Char} {rest : List Char}
    (foreign : isForeign character = true) :
    (Fault.unrecognizedToken (.ofList ((character :: rest).takeWhile isForeign))).Lexical
      (character :: rest) := by
  refine .unknown (List.takeWhile_prefix _).isInfix ?_ fun other member => ?_
  · rw [List.takeWhile_cons_of_pos foreign]
    exact List.cons_ne_nil _ _
  · have foreign := List.mem_takeWhile_imp member
    simpa [isForeign, and_assoc] using foreign

theorem first_lexical {character : Char} {rest : List Char} {fault : Fault}
    (failed : first character rest = .error fault) : fault.Lexical (character :: rest) := by
  unfold first at failed
  split at failed
  next => cases failed
  next =>
    split at failed
    next begun =>
      change (ofNumeral (Numeral.scan (character :: rest)).1).map _ = _ at failed
      apply lexical_of_numeral (by simpa using begun)
      cases found : ofNumeral (Numeral.scan (character :: rest)).1 with
      | error other =>
        rw [found] at failed
        cases failed
        rfl
      | ok token =>
        rw [found] at failed
        cases failed
    next notNumeral =>
      split at failed
      next => cases failed
      next => cases failed
      next none =>
        split at failed
        next => cases failed
        next solid =>
          cases failed
          apply lexical_of_foreign
          simp_all [isForeign]

/-- The first step leaves an end of the text. -/
theorem suffix_of_first {character : Char} {rest after : List Char} {token : Option Token}
    (found : first character rest = .ok (token, after)) : after <:+ character :: rest := by
  have front := first_front character rest
  rw [found] at front
  cases front with
  | token whole =>
    rw [whole]
    exact List.suffix_append _ _
  | blank whole =>
    rw [whole]
    exact List.suffix_cons _ _

theorem scan_lexical {text : List Char} {fault : Fault} (failed : scan text = .error fault) :
    fault.Lexical text := by
  fun_induction scan text with
  | case1 => cases failed
  | case2 character rest other found =>
    cases failed
    exact first_lexical found
  | case3 character rest token after found ih =>
    cases scanned : scan after with
    | ok tokens =>
      rw [scanned] at failed
      cases failed
    | error other =>
      rw [scanned] at failed
      cases failed
      exact (ih scanned).mono (suffix_of_first found).isInfix

/-- A scan ends with numbers that are finite and have no sign, identifiers and symbols, or with a
report of a point without digits, of a numeral that is beyond every number, or of characters that
are no blanks, operators or digits. The scanner that could also report operators, or fail to read a
numeral it has put together, reports neither. -/
theorem scans_are_lexical (text : String) :
    (match scan text.toList with
      | .ok tokens => ∀ token ∈ tokens, token.Scannable
      | .error fault => fault.Lexical text.toList) ∧
    Checked.scan text.toList = scan text.toList ∧
    (∀ character, Checked.scan text.toList ≠ .error (.invalidOperator character)) ∧
    (∀ fault : ReadFault, Checked.scan text.toList ≠ .error (.invalidNumber fault.message)) ∧
    (∀ rest, (Numeral.scan rest).1.digits = [] ∨ Binary64.read (Numeral.scan rest).1.text =
      .ok (.ofDecimal false (Numeral.scan rest).1.value)) := by
  refine ⟨?_, Checked.scan_eq _, fun character failed => ?_, fun fault failed => ?_, fun rest => ?_⟩
  · cases scanned : scan text.toList with
    | ok tokens => exact (Splits.of_scan scanned).scannable
    | error fault => exact scan_lexical scanned
  · rw [Checked.scan_eq] at failed
    cases scan_lexical failed
  · rw [Checked.scan_eq] at failed
    exact (scan_lexical failed).ne_readFault fault rfl
  · refine or_iff_not_imp_left.mpr fun present => ?_
    obtain ⟨_, -, spells⟩ := Numeral.scan_spells present
    exact read_of_spells spells.spells_text false

/-- The mark of the exponent is capital in the text and small in the report. -/
example : scan "1+2E+400".toList = .error (.invalidNumber "2e+400") := by decide +kernel

end Token
end PocketCalc
