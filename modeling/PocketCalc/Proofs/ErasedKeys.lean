import PocketCalc.Proofs.DisplayedAnswers
import PocketCalc.Proofs.TypedSessions

/-! A backspace takes back the last key. An expression does not record the keys it was typed
with, so the backspace tells from the text alone whether it ends in a function's name and its
parenthesis. That is no guess: but for the names themselves, no key and no answer has a letter in
which a name ends, so what stands before a parenthesis is a name only if both are one key. -/

namespace PocketCalc

private theorem Function.mem_all (function : Function) : function ∈ all := by
  cases function <;> decide

private theorem Function.opening_toList (function : Function) :
    function.opening.toList = function.name.toList ++ ['('] := by
  rw [opening, String.toList_append]
  rfl

namespace Session

def endsName (character : Char) : Bool :=
  Function.all.any (·.name.toList.getLast? == some character)

private theorem exists_name_end (function : Function) : ∃ before letter,
    function.name.toList = before ++ [letter] ∧ endsName letter = true := by
  have present : function.name.toList ≠ [] := by cases function <;> decide
  refine ⟨_, _, (List.dropLast_append_getLast present).symm, ?_⟩
  refine List.any_eq_true.mpr ⟨function, function.mem_all, ?_⟩
  rw [List.getLast?_eq_some_getLast present, beq_self_eq_true]

/-- What a backspace takes away at once: a function's name with its parenthesis, or a character
in which no name ends. -/
inductive Piece : List Char → Prop
  | opening (function : Function) : Piece function.opening.toList
  | single {character} : endsName character = false → Piece [character]

inductive Pieced : List Char → Prop
  | start : Pieced []
  | more {text piece} : Pieced text → Piece piece → Pieced (text ++ piece)

private theorem Pieced.append_other {text typed : List Char} (pieced : Pieced text)
    (other : typed.all (!endsName ·) = true) : Pieced (text ++ typed) := by
  induction typed generalizing text with
  | nil =>
    rw [List.append_nil]
    exact pieced
  | cons character later ih =>
    rw [List.all_cons, Bool.and_eq_true, Bool.not_eq_true'] at other
    rw [List.append_cons]
    exact ih (pieced.more (.single other.1)) other.2

private theorem Pieced.last {text : List Char} (pieced : Pieced text) :
    ∀ last ∈ text.getLast?, endsName last = false := by
  intro last ends
  cases pieced with
  | start => contradiction
  | more _ piece =>
    cases piece with
    | opening function =>
      rw [function.opening_toList, ← List.append_assoc, List.getLast?_concat] at ends
      cases ends
      decide
    | single other =>
      rw [List.getLast?_concat] at ends
      cases ends
      exact other

/-- No function's opening ends in that of another, so the one that a text ends in is found. -/
theorem eraseKey_opening (text : List Char) (function : Function) :
    eraseKey (text ++ function.opening.toList) = text := by
  have found : Function.all.find?
      (·.opening.toList.isSuffixOf (text ++ function.opening.toList)) = some function := by
    simp only [List.isSuffixOf, List.reverse_append]
    cases function <;> rfl
  rw [eraseKey, found]
  dsimp only
  rw [List.length_append, String.length_toList, Nat.add_sub_cancel, List.take_left]

private theorem eraseKey_single {text : List Char} (pieced : Pieced text) (character : Char) :
    eraseKey (text ++ [character]) = text := by
  have none : Function.all.find? (·.opening.toList.isSuffixOf (text ++ [character])) = none := by
    rw [List.find?_eq_none]
    intro function _ suffix
    obtain ⟨before, letter, name, ends⟩ := exists_name_end function
    rw [List.isSuffixOf_iff_suffix, function.opening_toList, name] at suffix
    -- The text would end in the name, and so in its last letter.
    obtain ⟨front, same⟩ := suffix
    rw [← List.append_assoc, ← List.append_assoc] at same
    obtain ⟨rfl, -⟩ := List.append_inj' same rfl
    have other := pieced.last letter List.getLast?_concat
    rw [ends] at other
    contradiction
  rw [eraseKey, none]
  exact List.dropLast_concat

private theorem Pieced.eraseKey_append {text piece : List Char} (pieced : Pieced text)
    (last : Piece piece) : eraseKey (text ++ piece) = text := by
  cases last with
  | opening function => exact eraseKey_opening text function
  | single => exact eraseKey_single pieced _

private theorem Pieced.erased {text : List Char} (pieced : Pieced text) :
    Pieced (eraseKey text) := by
  cases pieced with
  | start => exact .start
  | more earlier last =>
    rw [earlier.eraseKey_append last]
    exact earlier

private theorem not_endsName_of_ofNumber {character : Char} (ofNumber : OfNumber character) :
    endsName character = false := by
  rw [Bool.eq_false_iff]
  intro ends
  obtain ⟨function, -, last⟩ := List.any_eq_true.mp ends
  have letter : character ∈ ['n', 's', 't'] := by
    cases function <;> cases eq_of_beq last <;> decide
  have none : ∀ letter ∈ ['n', 's', 't'], ¬ OfNumber letter := by simp [OfNumber]
  exact none character letter ofNumber

private theorem pieced_answer (text : String) (mode : AngleMode) :
    Pieced (answer text mode).toList := by
  rw [← List.nil_append (answer text mode).toList]
  apply Pieced.start.append_other
  rcases answer_eq_errorText_or text mode with failed | ⟨negative, magnitude, same⟩
  · rw [failed]
    decide
  · obtain ⟨digits, written, canonical⟩ := canonical_written negative magnitude
    rw [same, canonical, String.toList_ofList]
    refine List.all_eq_true.mpr fun character member => ?_
    have all := forall_mem_withMinus ofNumber_minus written.ofNumber
    rw [not_endsName_of_ofNumber (all _ character member), Bool.not_false]

/-- All that a key types is one piece, but for the two letters of `pi`. -/
theorem piece_or_pi {action : Action} {key : String} (allowed : action.isKey = true)
    (types : action.typed? = some key) :
    Piece key.toList ∨ action = .function "pi" ∧ key = "pi" := by
  have piece {key : String} (single : key.toList.length = 1 ∧
      key.toList.all (!endsName ·) = true) : Piece key.toList := by
    obtain ⟨character, same⟩ := List.length_eq_one_iff.mp single.1
    rw [same] at single ⊢
    exact .single (by simpa using single.2)
  cases action with
  | number key =>
    cases types
    have single : ∀ key ∈ [".", "0", "1", "2", "3", "4", "5", "6", "7", "8", "9"],
        key.toList.length = 1 ∧ key.toList.all (!endsName ·) = true := by decide
    exact .inl (piece (single _ (List.contains_iff_mem.mp allowed)))
  | operator key =>
    cases types
    have single : ∀ key ∈ ["+", "-", "*", "/", "^"],
        key.toList.length = 1 ∧ key.toList.all (!endsName ·) = true := by decide
    exact .inl (piece (single _ (List.contains_iff_mem.mp allowed)))
  | function key =>
    cases types
    have kinds : ∀ key ∈ ["sin", "cos", "tan", "sqrt", "pi", "e", "(", ")"],
        (∃ function ∈ Function.all, typedBy key = function.opening) ∨
        ((typedBy key).toList.length = 1 ∧ (typedBy key).toList.all (!endsName ·) = true) ∨
        key = "pi" := by decide
    rcases kinds key (List.contains_iff_mem.mp allowed) with ⟨function, -, same⟩ | single | rfl
    · rw [same]
      exact .inl (.opening function)
    · exact .inl (piece single)
    · exact .inr ⟨rfl, by decide⟩
  | calculate | clear | backspace | toggleMode | setError | load => contradiction

theorem pieced_keptByKeys : KeptByKeys Pieced where
  empty := .start
  answered := pieced_answer
  typed pieced allowed types _ := by
    rcases piece_or_pi allowed types with piece | ⟨-, rfl⟩
    · exact pieced.more piece
    · exact pieced.append_other (by decide)
  erased := Pieced.erased

variable {session : Session} {action : Action}

theorem step_of_typed {key : String} (editing : session.calculated = false)
    (types : action.typed? = some key) : session.step action = session.append key := by
  have same : { session with calculated := false } = session := by rw [← editing]
  cases action with
  | number | function =>
    cases types
    simp [step, afresh, editing]
  | operator =>
    cases types
    simp [step, continued, editing, same]
  | calculate | clear | backspace | toggleMode | setError | load => contradiction

/-- A key that types something types it at the end. -/
theorem append_of_lt {key : String}
    (longer : session.expression.length < (session.append key).expression.length) :
    session.append key = { session with expression := session.expression ++ key } := by
  unfold append at longer ⊢
  split at longer
  next accepted => rw [if_pos accepted]
  next => exact absurd longer (Nat.lt_irrefl _)

theorem backspace_of_typed {key : String} (editing : session.calculated = false)
    (pieced : Pieced session.expression.toList) (piece : Piece key.toList)
    (types : action.typed? = some key)
    (longer : session.expression.length < (session.step action).expression.length) :
    (session.step action).step .backspace = session := by
  rw [step_of_typed editing types] at longer ⊢
  rw [append_of_lt longer]
  simp only [step, String.toList_append, pieced.eraseKey_append piece, String.ofList_toList]
  rw [← editing]

/-- How many bytes a backspace takes away: those of a function's name and parenthesis if the text
ends in them, and those of the last character otherwise. -/
def erasedSize (text : List Char) : Nat :=
  match Function.all.find? (·.opening.toList.isSuffixOf text) with
  | some function => function.opening.utf8ByteSize
  | none => (text.getLast?.map Char.utf8Size).getD 0

theorem exists_erased (text : List Char) : ∃ erased, text = eraseKey text ++ erased ∧
    (String.ofList erased).utf8ByteSize = erasedSize text ∧ (text ≠ [] → erased ≠ []) := by
  unfold eraseKey erasedSize
  cases found : Function.all.find? (·.opening.toList.isSuffixOf text) with
  | some function =>
    have suffix := List.find?_some found
    rw [List.isSuffixOf_iff_suffix] at suffix
    obtain ⟨before, rfl⟩ := suffix
    refine ⟨function.opening.toList, ?_, by rw [String.ofList_toList], fun _ => ?_⟩
    · dsimp only
      rw [List.length_append, String.length_toList, Nat.add_sub_cancel, List.take_left]
    · rw [function.opening_toList]
      exact List.append_ne_nil_of_right_ne_nil _ (List.cons_ne_nil _ _)
  | none =>
    obtain rfl | ⟨before, last, rfl⟩ := List.eq_nil_or_concat' text
    · exact ⟨[], rfl, rfl, id⟩
    · exact ⟨[last], by simp, by simp, fun _ => List.cons_ne_nil _ _⟩

private theorem erased_text (text : String) :
    let shorter := String.ofList (eraseKey text.toList)
    let kept : String.Pos.Raw := ⟨text.utf8ByteSize - erasedSize text.toList⟩
    kept.IsValid text ∧ shorter.toByteArray = text.toByteArray.extract 0 kept.byteIdx ∧
      shorter.toList <+: text.toList ∧ (text ≠ "" → shorter.length < text.length) := by
  intro shorter kept
  obtain ⟨erased, whole, size, present⟩ := exists_erased text.toList
  have joined : text = shorter ++ .ofList erased := by
    rw [← String.ofList_append, ← whole, String.ofList_toList]
  have left : kept = shorter.rawEndPos := by
    apply String.Pos.Raw.ext
    change text.utf8ByteSize - erasedSize text.toList = shorter.utf8ByteSize
    rw [← size, congrArg String.utf8ByteSize joined, String.utf8ByteSize_append,
      Nat.add_sub_cancel]
  refine ⟨?_, ?_, ?_, fun nonempty => ?_⟩
  · exact String.Pos.Raw.isValid_iff_exists_append.mpr ⟨shorter, _, joined, left⟩
  · rw [left, congrArg String.toByteArray joined, String.toByteArray_append]
    exact (ByteArray.extract_append_eq_left rfl).symm
  · rw [String.toList_ofList]
    exact prefix_of_eraseKey _
  · have more := List.length_pos_iff.mpr (present (by simpa using nonempty))
    have total : text.length = shorter.length + erased.length := by
      rw [congrArg String.length joined, String.length_append, String.length_ofList (l := erased)]
    omega

/-- A key that makes an expression longer is undone by a backspace, in whatever session the keypad
can lead to while an expression is typed; only `pi` takes two. From every text, however it came
about, a backspace takes whole characters, at least one if there is any. -/
theorem backspaces_take_back_keys (mode : AngleMode) :
    (∀ actions key, let session := (initial mode).run actions
      (∀ action ∈ actions, action.isKey = true) → session.calculated = false →
      key.isKey = true → key.typed? ≠ none → key ≠ .function "pi" →
      session.expression.length < (session.step key).expression.length →
        (session.step key).step .backspace = session) ∧
    (∀ session : Session,
      let text := session.expression
      let shorter := (session.step .backspace).expression
      let kept : String.Pos.Raw := ⟨text.utf8ByteSize - erasedSize text.toList⟩
      kept.IsValid text ∧ shorter.toByteArray = text.toByteArray.extract 0 kept.byteIdx ∧
        shorter.toList <+: text.toList ∧ (text ≠ "" → shorter.length < text.length)) := by
  refine ⟨?_, fun session => erased_text session.expression⟩
  intro actions key session keys editing allowed types other longer
  obtain ⟨typed, types⟩ := Option.ne_none_iff_exists'.mp types
  have pieced : Pieced session.expression.toList := pieced_keptByKeys.run .start keys
  rcases piece_or_pi allowed types with piece | ⟨same, -⟩
  · exact backspace_of_typed editing pieced piece types longer
  · exact absurd same other

/-- What is left of the error text does not end in a name, so the parenthesis alone is taken back,
and the session is still the one that failed. -/
theorem backspaces_take_back_keys_after_a_failure :
    let actions : List Action := [.number "1", .operator "/", .number "0", .calculate, .backspace]
    let session := (initial .degrees).run actions
    (∀ action ∈ actions, action.isKey = true) ∧
    session = ⟨"Erro", "Error", .degrees, some "Error", false⟩ ∧
    (session.step (.function "(")).expression = "Erro(" ∧
    (session.step (.function "(")).step .backspace = session := by
  intro actions session
  have keys : ∀ action ∈ actions, action.isKey = true := by decide
  have left : session = ⟨"Erro", "Error", .degrees, some "Error", false⟩ := by decide +kernel
  have typed : (session.step (.function "(")).expression = "Erro(" := by
    rw [left]
    decide
  have editing : session.calculated = false := by rw [left]
  have longer : session.expression.length < (session.step (.function "(")).expression.length := by
    rw [typed, left]
    decide
  have undone := (backspaces_take_back_keys .degrees).1 actions (.function "(") keys editing
    (by decide) (by decide) (by decide) longer
  exact ⟨keys, left, typed, undone⟩

/-- The constant's name is two characters, and a text that was not typed may end in the name of
a function. -/
example : ((initial .degrees).run [.function "pi", .backspace]).expression = "p" ∧
    ((initial .degrees).run [.load "2sin", .function "(", .backspace]).expression = "2" := by
  decide

end Session
end PocketCalc
