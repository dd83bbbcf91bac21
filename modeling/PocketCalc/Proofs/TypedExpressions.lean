import PocketCalc.Proofs.ArithmeticChains

/-! What the keys let through is what the reader understands. An expression typed from digits,
points and arithmetic characters, finished so far that it ends in an operand and all operands
have digits, is a chain of operands; it is then read as a sum, whose evaluation only fails in
an operation. -/

namespace PocketCalc

/-- Digits with at most one point are a numeral. -/
theorem Numeral.exists_spells {stretch : List Char}
    (keys : ∀ character ∈ stretch, character.isDigit = true ∨ character = '.')
    (points : stretch.count '.' ≤ 1) (digit : ∃ character ∈ stretch, character.isDigit = true) :
    ∃ numeral : Numeral, numeral.exponent = none ∧ numeral.Spells stretch := by
  have digits {part : List Char} (within : part ⊆ stretch) (none : '.' ∉ part) :
      Numeral.Digits part := by
    intro character member
    refine (keys character (within member)).resolve_right ?_
    rintro rfl
    exact none member
  obtain ⟨character, member, isDigit⟩ := digit
  rcases none_or_exists_first (· == '.') stretch with
    none | ⟨whole, point, fraction, rfl, none, isPoint⟩
  · have none : '.' ∉ stretch := fun member => by simpa using none '.' member
    have present : stretch ++ Option.getD Option.none [] ≠ [] := by
      simpa using List.ne_nil_of_mem member
    have spells := Numeral.Spells.parts (digits (List.Subset.refl _) none) .absent present .absent
    rw [List.append_nil, List.append_nil] at spells
    exact ⟨_, rfl, spells⟩
  · obtain rfl : point = '.' := by simpa using isPoint
    have none : '.' ∉ whole := fun member => by simpa using none '.' member
    have last : '.' ∉ fraction := by
      rw [List.count_append, List.count_cons_self] at points
      exact List.count_eq_zero.mp (by omega)
    have present : whole ++ (some fraction).getD [] ≠ [] := by
      intro none
      obtain ⟨rfl, rfl⟩ := List.append_eq_nil_iff.mp none
      obtain rfl := List.mem_singleton.mp member
      exact absurd isDigit (by decide)
    have before := digits (List.subset_append_left whole ('.' :: fraction)) none
    have behind : Digits fraction := digits (by simp) last
    have spells := Spells.parts before (.point behind) present .absent
    rw [List.append_nil] at spells
    exact ⟨_, rfl, spells⟩

/-- A text typed from digits, points and arithmetic characters that ends in an operand, and
whose operands all have digits. -/
structure Finished (text : List Char) : Prop where
  tidy : Tidy text
  keys : ∀ character ∈ text,
    character.isDigit = true ∨ character = '.' ∨ isArithmetic character = true
  present : text ≠ []
  ends : ∀ last ∈ text.getLast?, isArithmetic last = false
  digits : ∀ stretch ∈ text.splitOnP isArithmetic, stretch ≠ [] →
    ∃ character ∈ stretch, character.isDigit = true

private theorem Tidy.after {before after : List Char} {key : Char}
    (tidy : Tidy (before ++ key :: after)) (arithmetic : isArithmetic key = true) : Tidy after := by
  have within : after <:+: before ++ key :: after := ⟨before ++ [key], [], by simp⟩
  refine ⟨?_, ?_, ?_⟩
  · intro first begins following
    obtain ⟨rest, rfl⟩ := List.head?_eq_some_iff.mp begins
    exact (tidy.adjacent key first ⟨before, rest, by simp⟩ arithmetic following).2
  · intro first second consecutive
    exact tidy.adjacent first second (consecutive.trans within)
  · intro stretch consecutive
    exact tidy.points stretch (consecutive.trans within)

private theorem Finished.after {before after : List Char} {key : Char}
    (finished : Finished (before ++ key :: after))
    (plain : ∀ character ∈ before, isArithmetic character = false)
    (arithmetic : isArithmetic key = true) : Finished after := by
  refine ⟨finished.tidy.after arithmetic, ?_, ?_, ?_, ?_⟩
  · intro character member
    apply finished.keys
    simp [member]
  · rintro rfl
    have operand := finished.ends key List.getLast?_concat
    rw [arithmetic] at operand
    contradiction
  · intro last ends
    apply finished.ends
    rw [Option.mem_def] at ends ⊢
    simp [List.getLast?_append, List.getLast?_cons, ends]
  · intro stretch member
    apply finished.digits
    rw [List.splitOnP_append_cons_of_forall_mem plain key arithmetic]
    exact List.mem_cons_of_mem _ member

private theorem Finished.exists_numeral {text stretch : List Char} (finished : Finished text)
    (piece : stretch ∈ text.splitOnP isArithmetic) (present : stretch ≠ []) :
    ∃ numeral : Numeral, numeral.exponent = none ∧ numeral.Spells stretch := by
  obtain ⟨within, plain⟩ := mem_splitOnP piece
  refine Numeral.exists_spells ?_ (finished.tidy.points stretch within plain)
    (finished.digits stretch piece present)
  intro character member
  rcases finished.keys character (within.subset member) with digit | point | arithmetic
  · exact .inl digit
  · exact .inr point
  · rw [plain character member] at arithmetic
    contradiction

private theorem Operand.negative_of_unsigned {lexeme : List Char} (operand : Operand lexeme)
    (unsigned : lexeme.head? ≠ some '-') : Operand ('-' :: lexeme) := by
  cases operand with
  | unsigned plain spells => exact .negative plain spells
  | negative => exact absurd rfl unsigned

private theorem Chain.minus {text : List Char} (chain : Chain text)
    (unsigned : text.head? ≠ some '-') : Chain ('-' :: text) := by
  cases chain with
  | operand operand => exact .operand (operand.negative_of_unsigned unsigned)
  | @more lexeme key rest operand arithmetic chain =>
    have unsigned : lexeme.head? ≠ some '-' := by
      intro signed
      apply unsigned
      rw [List.head?_append, signed, Option.some_or]
    exact .more (operand.negative_of_unsigned unsigned) arithmetic chain

/-- By induction on the length: an arithmetic character at the front is the sign of an operand,
and any other one joins the operand before it to the chain after it. -/
theorem Finished.chain {text : List Char} (finished : Finished text) : Chain text := by
  rcases none_or_exists_first isArithmetic text with
    plain | ⟨before, key, after, same, plain, arithmetic⟩
  · have piece : text ∈ text.splitOnP isArithmetic := by
      rw [List.splitOnP_eq_singleton plain]
      exact List.mem_singleton_self text
    obtain ⟨numeral, noExponent, spells⟩ := finished.exists_numeral piece finished.present
    exact .operand (.unsigned noExponent spells)
  · have shorter : after.length < text.length := by
      rw [same, List.length_append, List.length_cons]
      omega
    have finished : Finished (before ++ key :: after) := same ▸ finished
    have chain := (finished.after plain arithmetic).chain
    rw [same]
    by_cases front : before = []
    · subst front
      obtain rfl := finished.tidy.front key rfl arithmetic
      refine chain.minus ?_
      intro signed
      obtain ⟨rest, rfl⟩ := List.head?_eq_some_iff.mp signed
      exact (finished.tidy.adjacent '-' '-' ⟨[], rest, rfl⟩ arithmetic arithmetic).1 rfl
    · have piece : before ∈ (before ++ key :: after).splitOnP isArithmetic := by
        rw [List.splitOnP_append_cons_of_forall_mem plain key arithmetic]
        exact List.mem_cons_self
      obtain ⟨numeral, noExponent, spells⟩ := finished.exists_numeral piece front
      exact .more (.unsigned noExponent spells) arithmetic chain
termination_by text.length
decreasing_by exact shorter

/-- Without names to resolve, only operations can fail. -/
theorem Expr.evaluate_failsOnly {σ : Type} (environment : Environment σ) (expr : Expr)
    (unnamed : ∀ token ∈ expr.tokens, token.name? = none) :
    (expr.evaluate environment).FailsOnly Fault.OfOperation := by
  match expr with
  | .number value => exact Evaluation.failsOnly_pure _ value
  | .group inner =>
    simp only [tokens, List.cons_append, List.forall_mem_cons, List.forall_mem_append] at unnamed
    exact inner.evaluate_failsOnly environment unnamed.2.1
  | .signed sign operand =>
    simp only [tokens, List.forall_mem_cons] at unnamed
    have inside := operand.evaluate_failsOnly environment unnamed.2
    exact inside.bind fun value => Evaluation.failsOnly_pure _ _
  | .binary operator left right =>
    simp only [tokens, List.forall_mem_append, List.forall_mem_cons] at unnamed
    have leftward := left.evaluate_failsOnly environment unnamed.1
    have rightward := right.evaluate_failsOnly environment unnamed.2.2
    exact leftward.bind fun first => rightward.bind fun second =>
      Evaluation.failsOnly_apply operator first second
  | .adjoining left right =>
    simp only [tokens, List.forall_mem_append] at unnamed
    have leftward := left.evaluate_failsOnly environment unnamed.1
    have rightward := right.evaluate_failsOnly environment unnamed.2
    exact leftward.bind fun first => rightward.bind fun second =>
      Evaluation.failsOnly_apply .times first second
  | .call name _ =>
    have named := unnamed (.atom name) List.mem_cons_self
    cases named

theorem Chain.fault_of_evaluate {text : String} {mode : AngleMode} {fault : Fault}
    (chain : Chain text.toList) (failed : evaluate text mode = .error fault) :
    fault.OfOperation ∨ fault.TooLarge text.toList := by
  rcases chain.scan Environment.standardArity with
    ⟨tokens, summands, scanned⟩ | ⟨other, scanned, large⟩
  · obtain ⟨expr, derived, shallow⟩ := summands.sum.derived
    rw [evaluate_of_scan scanned derived (shallow.trans (by decide))] at failed
    have unnamed := summands.sum.unnamed
    rw [← derived.tokens_eq] at unnamed
    exact .inl (expr.evaluate_failsOnly (.standard mode) unnamed (Prod.ext failed rfl))
  · rw [evaluate_of_fault scanned] at failed
    cases failed
    exact .inr large

/-- A text made of digits, points and arithmetic characters, each typed where the keys allow it. -/
inductive Typed : String → Prop
  | start : Typed ""
  | key {text} (character : Char) : Typed text →
      character.isDigit = true ∨ character = '.' ∨ isArithmetic character = true →
      isValidAppend text (String.singleton character) = true →
      Typed (text ++ String.singleton character)

theorem Typed.tidy {text : String} (typed : Typed text) : Tidy text.toList := by
  induction typed with
  | start => exact tidy_nil
  | key character _ _ accepted ih =>
    rw [String.toList_append, String.toList_singleton]
    rw [isValidAppend, String.toList_singleton] at accepted
    exact ih.append_key accepted

theorem Typed.keys {text : String} (typed : Typed text) : ∀ character ∈ text.toList,
    character.isDigit = true ∨ character = '.' ∨ isArithmetic character = true := by
  induction typed with
  | start => exact List.forall_mem_nil _
  | key character _ key _ ih =>
    rw [String.toList_append, String.toList_singleton]
    exact List.forall_mem_append.mpr ⟨ih, List.forall_mem_singleton.mpr key⟩

/-- Whatever is typed key by key is well formed when it ends in an operand and every stretch
between arithmetic characters has a digit: if it has no value, an operation has no finite result
or a numeral is beyond every number. -/
theorem typed_expressions_are_well_formed {text : String} (typed : Typed text)
    (present : text ≠ "") (ends : ∀ last ∈ text.toList.getLast?, isArithmetic last = false)
    (digits : ∀ stretch ∈ text.toList.splitOnP isArithmetic, stretch ≠ [] →
      ∃ character ∈ stretch, character.isDigit = true) (mode : AngleMode) :
    (∃ value, evaluate text mode = .ok value) ∨
      ∃ fault, evaluate text mode = .error fault ∧
        (fault.OfOperation ∨ fault.TooLarge text.toList) := by
  have finished : Finished text.toList :=
    ⟨typed.tidy, typed.keys, by simpa using present, ends, digits⟩
  cases evaluated : evaluate text mode with
  | ok value => exact .inl ⟨value, rfl⟩
  | error fault => exact .inr ⟨fault, rfl, finished.chain.fault_of_evaluate evaluated⟩

/-- Signed operands without digits before or behind their points, and a division by zero. -/
theorem typed_expressions_are_well_formed_by_zero : let text := "-.5/-0."
    Typed text ∧ text ≠ "" ∧ (∀ last ∈ text.toList.getLast?, isArithmetic last = false) ∧
    (∀ stretch ∈ text.toList.splitOnP isArithmetic, stretch ≠ [] →
      ∃ character ∈ stretch, character.isDigit = true) ∧
    ∃ fault, evaluate text .degrees = .error fault ∧
      (fault.OfOperation ∨ fault.TooLarge text.toList) := by
  intro text
  have sign : Typed "-" := .key '-' .start (by decide) rfl
  have point : Typed "-." := .key '.' sign (by decide) rfl
  have operand : Typed "-.5" := .key '5' point (by decide) rfl
  have operator : Typed "-.5/" := .key '/' operand (by decide) rfl
  have divisorSign : Typed "-.5/-" := .key '-' operator (by decide) rfl
  have divisor : Typed "-.5/-0" := .key '0' divisorSign (by decide) rfl
  have typed : Typed text := .key '.' divisor (by decide) rfl
  have present : text ≠ "" := by decide
  have ends : ∀ last ∈ text.toList.getLast?, isArithmetic last = false := by
    have point : text.toList.getLast? = some '.' := by decide
    intro last ends
    rw [point] at ends
    cases ends
    rfl
  have digits : ∀ stretch ∈ text.toList.splitOnP isArithmetic, stretch ≠ [] →
      ∃ character ∈ stretch, character.isDigit = true := by
    have pieces : text.toList.splitOnP isArithmetic = [[], ['.', '5'], [], ['0', '.']] := by decide
    rw [pieces]
    simp
  have outcome := typed_expressions_are_well_formed typed present ends digits .degrees
  have failed : evaluate text .degrees = .error .divideByZero := by decide +kernel
  refine ⟨typed, present, ends, digits, outcome.resolve_left ?_⟩
  rintro ⟨value, succeeded⟩
  rw [failed] at succeeded
  cases succeeded

end PocketCalc
