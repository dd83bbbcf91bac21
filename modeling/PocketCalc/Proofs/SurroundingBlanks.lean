import PocketCalc.Proofs.Calculator

/-! Blanks around an expression mean nothing. No lexeme contains a blank, so a blank ends the
lexeme before it and belongs to none, and a text has the same tokens without those at its
ends. -/

namespace PocketCalc

theorem continuesAtom_of_blank {character : Char} (blank : isBlank character = true) :
    Token.continuesAtom character = false := by
  have contained : CharacterClass.blank.Contains character := blank
  have notLetter : isAlphabetic character = false :=
    Bool.eq_false_iff.mpr (CharacterClass.not_letter_of_blank contained)
  have notNumeric : isNumeric character = false := by
    have none : ∀ code ∈ codes blankRanges, inRanges code numericRanges = false := by
      decide +kernel
    exact none _ contained.mem_blanks
  have notLine : character ≠ '_' := by
    rintro rfl
    contradiction
  simp [Token.continuesAtom, notLetter, notNumeric, notLine]

theorem Numeral.Spells.not_blank {numeral : Numeral} {lexeme : List Char}
    (spells : numeral.Spells lexeme) : ∀ character ∈ lexeme, isBlank character = false := by
  intro character member
  rw [Bool.eq_false_iff]
  intro blank
  have contained : CharacterClass.blank.Contains character := blank
  rcases spells.characters character member with digit | mark
  · exact CharacterClass.not_numeral_of_blank contained (.inl digit)
  · have none : ['.', 'e', 'E', '+', '-'].all (!isBlank ·) = true := by decide
    have other := List.all_eq_true.mp none character mark
    exact Bool.eq_false_iff.mp ((Bool.not_eq_true' _).mp other) blank

namespace Token

private theorem Spelled.not_blank_of_mem {lexeme : List Char} {token : Token}
    (spelled : Spelled lexeme token) : ∀ character ∈ lexeme, isBlank character = false := by
  cases spelled with
  | @atom first others letter all =>
    intro character member
    rw [Bool.eq_false_iff]
    intro blank
    rcases List.mem_cons.mp member with rfl | later
    · have contained : CharacterClass.blank.Contains character := blank
      exact CharacterClass.not_letter_of_blank contained letter
    · have ended := continuesAtom_of_blank blank
      rw [all character later] at ended
      contradiction
  | number spells => exact spells.not_blank
  | symbol member =>
    have none : ∀ symbol ∈ symbols, symbol.1.all (!isBlank ·) = true := by decide
    simpa using none _ member

/-- A lexeme in front of a text ends before the blanks at its end. -/
theorem Spelled.prefix_of_append_blanks {lexeme text blanks : List Char} {token : Token}
    (spelled : Spelled lexeme token) (all : ∀ character ∈ blanks, isBlank character = true)
    (before : lexeme <+: text ++ blanks) : lexeme <+: text := by
  rcases List.prefix_or_prefix_of_prefix before (List.prefix_append text blanks) with
    within | beyond
  · exact within
  · obtain ⟨more, rfl⟩ := beyond
    rw [List.prefix_append_right_inj] at before
    cases more with
    | nil => simp
    | cons first others =>
      have blank := all first (before.subset List.mem_cons_self)
      rw [spelled.not_blank_of_mem first (by simp)] at blank
      contradiction

theorem splits_cons_blank_iff {character : Char} {rest : List Char} {tokens : List Token}
    (blank : isBlank character = true) :
    Splits (character :: rest) tokens ↔ Splits rest tokens := by
  refine ⟨fun splits => ?_, .blank blank⟩
  generalize whole : character :: rest = text at splits
  cases splits with
  | done => cases whole
  | blank _ splits =>
    cases whole
    exact splits
  | lexeme spelled =>
    rw [spelled.not_blank whole.symm] at blank
    contradiction

theorem splits_blanks_append_iff {blanks text : List Char} {tokens : List Token}
    (all : ∀ character ∈ blanks, isBlank character = true) :
    Splits (blanks ++ text) tokens ↔ Splits text tokens := by
  induction blanks with
  | nil => rfl
  | cons first others ih =>
    rw [List.forall_mem_cons] at all
    rw [List.cons_append, splits_cons_blank_iff all.1, ih all.2]

private theorem Splits.append_blanks {blanks text : List Char} {tokens : List Token}
    (all : ∀ character ∈ blanks, isBlank character = true) (splits : Splits text tokens) :
    Splits (text ++ blanks) tokens := by
  induction splits with
  | done =>
    have splits : Splits (blanks ++ []) [] := (splits_blanks_append_iff all).mpr .done
    rwa [List.append_nil] at splits
  | blank blank _ ih => exact .blank blank ih
  | lexeme spelled longest finite _ ih =>
    rw [List.append_assoc]
    refine .lexeme spelled ?_ finite ih
    intro other token otherSpelled before
    rw [← List.append_assoc] at before
    exact longest otherSpelled (otherSpelled.prefix_of_append_blanks all before)

private theorem Splits.of_append_blanks {blanks text : List Char} {tokens : List Token}
    (all : ∀ character ∈ blanks, isBlank character = true)
    (splits : Splits (text ++ blanks) tokens) : Splits text tokens := by
  generalize same : text ++ blanks = whole at splits
  induction splits generalizing text with
  | done =>
    rw [(List.append_eq_nil_iff.mp same).1]
    exact .done
  | @blank character rest tokens blank splits ih =>
    cases text with
    | cons first others =>
      rw [List.cons_append, List.cons.injEq] at same
      rw [same.1]
      exact .blank blank (ih same.2)
    | nil =>
      have splits := Splits.blank blank splits
      rw [← same, List.nil_append, ← List.append_nil blanks, splits_blanks_append_iff all] at splits
      exact splits
  | @lexeme lexeme token rest tokens spelled longest finite _ ih =>
    have before : lexeme <+: text := by
      apply spelled.prefix_of_append_blanks all
      exact ⟨rest, same.symm⟩
    obtain ⟨more, rfl⟩ := before
    rw [List.append_assoc, List.append_cancel_left_eq] at same
    refine .lexeme spelled ?_ finite (ih same)
    intro other token otherSpelled before
    apply longest otherSpelled
    rw [← same, ← List.append_assoc]
    exact before.trans (List.prefix_append _ _)

end Token

private theorem exists_blanks_around (text : List Char) : ∃ leading trailing,
    text = leading ++ trimBlanks text ++ trailing ∧
      (∀ character ∈ leading, isBlank character = true) ∧
      ∀ character ∈ trailing, isBlank character = true := by
  refine ⟨text.takeWhile isBlank, ((text.dropWhile isBlank).reverse.takeWhile isBlank).reverse,
    ?_, fun _ => List.mem_takeWhile_imp, fun character member => ?_⟩
  · rw [trimBlanks, List.append_assoc, ← List.reverse_append, List.takeWhile_append_dropWhile,
      List.reverse_reverse, List.takeWhile_append_dropWhile]
  · exact List.mem_takeWhile_imp (List.mem_reverse.mp member)

theorem splits_trimBlanks_iff {text : List Char} {tokens : List Token} :
    Token.Splits (trimBlanks text) tokens ↔ Token.Splits text tokens := by
  obtain ⟨leading, trailing, whole, first, last⟩ := exists_blanks_around text
  constructor
  · intro splits
    rw [whole, List.append_assoc, Token.splits_blanks_append_iff first]
    exact splits.append_blanks last
  · intro splits
    rw [whole, List.append_assoc, Token.splits_blanks_append_iff first] at splits
    exact splits.of_append_blanks last

theorem trimBlanks_eq_self {text : List Char}
    (none : ∀ character ∈ text, isBlank character = false) :
    trimBlanks text = text := by
  have kept {text : List Char} (none : ∀ character ∈ text, isBlank character = false) :
      text.dropWhile isBlank = text := by
    cases text with
    | nil => rfl
    | cons first others => exact List.dropWhile_cons_of_neg (by simp [none first])
  rw [trimBlanks, kept none, kept (by simpa using none), List.reverse_reverse]

/-- The answer depends only on which values an expression has. -/
theorem answer_congr {text other : String} {mode : AngleMode}
    (same : ∀ value, evaluate text mode = .ok value ↔ evaluate other mode = .ok value) :
    answer text mode = answer other mode := by
  unfold answer
  cases first : evaluate text mode with
  | ok value => rw [(same value).mp first]
  | error _ =>
    cases second : evaluate other mode with
    | ok value =>
      rw [(same value).mpr second] at first
      cases first
    | error _ => rfl

theorem answer_trimBlanks (text : String) (mode : AngleMode) :
    answer (.ofList (trimBlanks text.toList)) mode = answer text mode := by
  apply answer_congr
  intro value
  simp only [evaluate_eq_ok_iff, String.toList_ofList, splits_trimBlanks_iff]

end PocketCalc
