import PocketCalc.Proofs.TidyText

/-! A session that is only ever typed into keeps its expression tidy. Calculations replace it by
an answer and backspaces cut into names, operators and earlier answers alike, but an answer is
tidy, and so is what is left of a tidy text. -/

namespace PocketCalc

/-- What the keypad offers: everything but to load an expression typed elsewhere. -/
def Action.isKey : Action → Bool
  | .number key => [".", "0", "1", "2", "3", "4", "5", "6", "7", "8", "9"].contains key
  | .operator key => ["+", "-", "*", "/", "^"].contains key
  | .function key => ["sin", "cos", "tan", "sqrt", "pi", "e", "(", ")"].contains key
  | .calculate | .clear | .backspace | .toggleMode | .setError _ => true
  | .load _ => false

def Action.typed? : Action → Option String
  | .number key | .operator key => some key
  | .function key => some (Session.typedBy key)
  | _ => none

namespace Session

/-- A property of texts that the empty one and every answer have, and that is kept where an
accepted key is typed and where a backspace takes one away. -/
structure KeptByKeys (Kept : List Char → Prop) : Prop where
  empty : Kept []
  answered (text : String) (mode : AngleMode) : Kept (answer text mode).toList
  typed {text : List Char} {action : Action} {key : String} : Kept text → action.isKey = true →
    action.typed? = some key → accepts text key.toList = true → Kept (text ++ key.toList)
  erased {text : List Char} : Kept text → Kept (eraseKey text)

namespace KeptByKeys

variable {Kept : List Char → Prop} {session : Session} {action : Action}

private theorem append {key : String} (keeps : KeptByKeys Kept)
    (kept : Kept session.expression.toList)
    (allowed : action.isKey = true) (types : action.typed? = some key) :
    Kept (session.append key).expression.toList := by
  unfold Session.append
  split
  next accepted =>
    dsimp only
    rw [String.toList_append]
    exact keeps.typed kept allowed types accepted
  next => exact kept

private theorem afresh (keeps : KeptByKeys Kept) (kept : Kept session.expression.toList) :
    Kept session.afresh.expression.toList := by
  unfold Session.afresh
  split
  · exact keeps.empty
  · exact kept

private theorem continued (keeps : KeptByKeys Kept) (kept : Kept session.expression.toList) :
    Kept session.continued.expression.toList := by
  unfold Session.continued
  split
  · exact keeps.empty
  · exact kept

private theorem calculate (keeps : KeptByKeys Kept) (kept : Kept session.expression.toList) :
    Kept session.calculate.expression.toList := by
  unfold Session.calculate
  split
  · exact kept
  · exact keeps.answered _ _

theorem step (keeps : KeptByKeys Kept) (kept : Kept session.expression.toList)
    (allowed : action.isKey = true) : Kept (session.step action).expression.toList := by
  cases action with
  | number | function => exact keeps.append (keeps.afresh kept) allowed rfl
  | operator => exact keeps.append (keeps.continued kept) allowed rfl
  | calculate => exact keeps.calculate kept
  | clear => exact keeps.empty
  | backspace =>
    simp only [Session.step, String.toList_ofList]
    exact keeps.erased kept
  | toggleMode | setError => exact kept
  | load => contradiction

theorem run {actions : List Action} (keeps : KeptByKeys Kept)
    (kept : Kept session.expression.toList) (keys : ∀ action ∈ actions, action.isKey = true) :
    Kept (session.run actions).expression.toList := by
  induction actions generalizing session with
  | nil => exact kept
  | cons action later ih =>
    obtain ⟨key, keys⟩ := List.forall_mem_cons.mp keys
    exact ih (keeps.step kept key) keys

end KeptByKeys

theorem prefix_of_eraseKey (text : List Char) : eraseKey text <+: text := by
  unfold eraseKey
  split
  · exact List.take_prefix _ _
  · exact List.dropLast_prefix _

/-- Number and operator keys type one character, the others nothing that the keys police. -/
theorem single_or_plain_of_typed {action : Action} {key : String} (allowed : action.isKey = true)
    (types : action.typed? = some key) :
    key.toList.length = 1 ∨ key.toList.all isPlain = true := by
  cases action with
  | number key =>
    cases types
    have single : ∀ key ∈ [".", "0", "1", "2", "3", "4", "5", "6", "7", "8", "9"],
        key.toList.length = 1 := by decide
    exact .inl (single _ (List.contains_iff_mem.mp allowed))
  | operator key =>
    cases types
    have single : ∀ key ∈ ["+", "-", "*", "/", "^"], key.toList.length = 1 := by decide
    exact .inl (single _ (List.contains_iff_mem.mp allowed))
  | function key =>
    cases types
    have plain : ∀ key ∈ ["sin", "cos", "tan", "sqrt", "pi", "e", "(", ")"],
        (typedBy key).toList.all isPlain = true := by decide
    exact .inr (plain _ (List.contains_iff_mem.mp allowed))
  | calculate | clear | backspace | toggleMode | setError | load => contradiction

theorem tidy_keptByKeys : KeptByKeys Tidy where
  empty := tidy_nil
  answered := tidy_answer
  typed tidy allowed types accepted := by
    rcases single_or_plain_of_typed allowed types with single | plain
    · obtain ⟨character, same⟩ := List.length_eq_one_iff.mp single
      rw [same] at accepted ⊢
      exact tidy.append_key accepted
    · exact tidy.append_plain plain
  erased tidy := tidy.of_prefix (prefix_of_eraseKey _)

theorem run_tidy {session : Session} {actions : List Action}
    (tidy : Tidy session.expression.toList) (keys : ∀ action ∈ actions, action.isKey = true) :
    Tidy (session.run actions).expression.toList := tidy_keptByKeys.run tidy keys

/-- Whatever the keys, an expression does not begin with an operator; where two arithmetic
characters meet, the second is a minus, and it ends there; and no stretch between arithmetic
characters has two points. -/
theorem typed_expressions_are_tidy (mode : AngleMode) (actions : List Action)
    (keys : ∀ action ∈ actions, action.isKey = true) :
    let text := ((initial mode).run actions).expression.toList
    (∀ first ∈ text.head?, first ∉ ['+', '*', '/']) ∧
    (∀ before first second after, text = before ++ first :: second :: after →
      isArithmetic first = true → isArithmetic second = true →
        first ∈ ['+', '*', '/'] ∧ second = '-' ∧
          ∀ third ∈ after.head?, isArithmetic third = false) ∧
    (∀ stretch ∈ text.splitOnP isArithmetic, stretch.count '.' ≤ 1) := by
  intro text
  have tidy : Tidy text := run_tidy tidy_nil keys
  refine ⟨?_, ?_, ?_⟩
  · intro first begins operator
    have minus := tidy.front first begins (isArithmetic_iff.mpr (.inl operator))
    subst minus
    contradiction
  · intro before first second after same arithmetic following
    have within : [first, second] <:+: text := ⟨before, after, by simp [same]⟩
    obtain ⟨other, rfl⟩ := tidy.adjacent first second within arithmetic following
    refine ⟨(isArithmetic_iff.mp arithmetic).resolve_right other, rfl, ?_⟩
    intro third begins
    obtain ⟨rest, rfl⟩ := List.head?_eq_some_iff.mp begins
    have within : ['-', third] <:+: text := ⟨before ++ [first], rest, by simp [same]⟩
    apply Bool.eq_false_iff.mpr
    intro last
    exact (tidy.adjacent '-' third within following last).1 rfl
  · intro stretch member
    obtain ⟨within, clean⟩ := mem_splitOnP member
    exact tidy.points stretch within clean

/-- Typing goes on from a result in exponent notation that has lost its last digit. -/
theorem typed_expressions_are_tidy_in_a_cut_result :
    let keys : List Action := [.number ".", .number "0", .number "0", .number "0", .number "0",
      .number "0", .number "0", .number "1", .calculate, .backspace, .operator "*", .number "5",
      .operator "*", .operator "-", .operator "-", .number "."]
    (∀ action ∈ keys, action.isKey = true) ∧
    ((initial .degrees).run keys).expression = "1e-5*-." ∧
    ∀ stretch ∈ "1e-5*-.".toList.splitOnP isArithmetic, stretch.count '.' ≤ 1 := by
  intro keys
  have allowed : ∀ action ∈ keys, action.isKey = true := by decide
  have typed : ((initial .degrees).run keys).expression = "1e-5*-." := by decide +kernel
  have tidy := typed_expressions_are_tidy .degrees keys allowed
  rw [typed] at tidy
  exact ⟨allowed, typed, tidy.2.2⟩

end Session
end PocketCalc
