import PocketCalc.Proofs.AgreeingEnvironments
import PocketCalc.Proofs.SessionSteps

/-! The angle mode matters to the circular functions only. Without them an expression is worth
the same in both modes, and two sessions that begin in opposite modes stay the same but for the
mode for as long as nothing with a circular function in it is calculated. -/

namespace PocketCalc

def Function.isCircular : Function → Bool
  | .sin | .cos | .tan => true
  | .sqrt => false

def Token.isCircular : Token → Bool
  | .atom name => ["sin", "cos", "tan"].contains name
  | _ => false

/-- Whether the tokens of an expression, if it has any, are without circular functions. -/
def isAngleFree (text : String) : Bool :=
  match Token.scan text.toList with
  | .ok tokens => tokens.all (!·.isCircular)
  | .error _ => true

private theorem Function.apply_of_not_circular {function : Function}
    (plain : function.isCircular = false) (mode other : AngleMode) (argument : Binary64) :
    function.apply mode argument = function.apply other argument := by
  cases function with
  | sqrt => rfl
  | sin | cos | tan => contradiction

private theorem Function.name_eq_of_ofName? {name : String} {function : Function}
    (found : ofName? name = some function) : function.name = name := by
  unfold ofName? at found
  simpa using List.find?_some found

private theorem Token.isCircular_name (function : Function) :
    (Token.atom function.name).isCircular = function.isCircular := by
  cases function <;> decide

namespace Environment

private theorem standardResolve_of_not_circular {name : String}
    (plain : (Token.atom name).isCircular = false) (mode other : AngleMode)
    (arguments : List Argument) :
    standardResolve mode name arguments = standardResolve other name arguments := by
  have applied (argument : Binary64) :
      (Function.ofName? name).map (fun function => function.apply mode argument) =
        (Function.ofName? name).map (fun function => function.apply other argument) := by
    cases found : Function.ofName? name with
    | none => rw [Option.map_none, Option.map_none]
    | some function =>
      have known : function.isCircular = false := by
        rw [← Token.isCircular_name, Function.name_eq_of_ofName? found, plain]
      rw [Option.map_some, Option.map_some,
        Function.apply_of_not_circular known mode other argument]
  simp only [standardResolve, standardValue, applied]

/-- The calculator's environments have no state, and the names they tell apart are circular. -/
theorem standard_agrees {tokens : List Token} (plain : ∀ token ∈ tokens, token.isCircular = false)
    (mode other : AngleMode) : Agrees (· = ·) tokens (standard mode) (standard other) where
  arity _ _ := rfl
  resolve name arguments member := by
    have same := standardResolve_of_not_circular (plain _ member) mode other arguments
    dsimp only [standard]
    rw [same]
    intro before other kept
    cases kept
    exact ⟨rfl, rfl⟩

end Environment

theorem evaluate_of_isAngleFree {text : String} (free : isAngleFree text = true)
    (mode other : AngleMode) : evaluate text mode = evaluate text other := by
  unfold isAngleFree at free
  unfold evaluate Environment.evaluateText
  cases scanned : Token.scan text.toList with
  | error => rfl
  | ok tokens =>
    rw [scanned] at free
    have plain : ∀ token ∈ tokens, token.isCircular = false := by simpa using free
    exact ((Environment.standard_agrees plain mode other).parse rfl).1

theorem answer_of_isAngleFree {text : String} (free : isAngleFree text = true)
    (mode other : AngleMode) : answer text mode = answer text other := by
  rw [answer, answer, evaluate_of_isAngleFree free mode other]

namespace Session

def opposed (session : Session) : Session := { session with mode := session.mode.toggle }

private theorem opposed_append (session : Session) (text : String) :
    session.opposed.append text = (session.append text).opposed := by
  unfold append opposed
  dsimp only
  split <;> rfl

private theorem opposed_afresh (session : Session) :
    session.opposed.afresh = session.afresh.opposed := by
  unfold afresh opposed
  dsimp only
  split <;> rfl

private theorem opposed_continued (session : Session) :
    session.opposed.continued = session.continued.opposed := by
  unfold continued opposed
  dsimp only
  split <;> rfl

private theorem opposed_calculate {session : Session}
    (free : isAngleFree session.expression = true) :
    session.opposed.calculate = session.calculate.opposed := by
  unfold calculate opposed
  dsimp only
  split
  · rfl
  · rw [answer_of_isAngleFree free session.mode.toggle session.mode]

theorem opposed_step {session : Session} {action : Action}
    (free : action = .calculate → isAngleFree session.expression = true) :
    session.opposed.step action = (session.step action).opposed := by
  cases action with
  | number | function => rw [step, step, opposed_afresh, opposed_append]
  | operator => rw [step, step, opposed_continued, opposed_append]
  | calculate => exact opposed_calculate (free rfl)
  | clear | backspace | toggleMode | setError | load => rfl

theorem opposed_run {session : Session} {actions : List Action}
    (free : ∀ earlier later, actions = earlier ++ .calculate :: later →
      isAngleFree (session.run earlier).expression = true) :
    session.opposed.run actions = (session.run actions).opposed := by
  induction actions generalizing session with
  | nil => rfl
  | cons action actions ih =>
    have first : session.opposed.step action = (session.step action).opposed := by
      refine opposed_step ?_
      rintro rfl
      exact free [] actions rfl
    change (session.opposed.step action).run actions = _
    rw [first]
    refine ih fun earlier later same => ?_
    exact free (action :: earlier) later (by rw [same, List.cons_append])

end Session

/-- Environments whose states are related give a list of tokens the same value or the same fault,
and stay related, if they agree on the atoms that occur in it. An expression without circular
functions is therefore worth the same in both modes. If no other is calculated, sessions that
begin in opposite modes are after every action in opposite modes, and the same otherwise. -/
theorem angle_modes_matter_to_angles {σ τ : Type} :
    (∀ (related : σ → τ → Prop) (tokens : List Token) (first : Environment σ)
      (second : Environment τ), first.Agrees related tokens second → ∀ before other,
        related before other →
          (first.parse tokens before).1 = (second.parse tokens other).1 ∧
          related (first.parse tokens before).2 (second.parse tokens other).2) ∧
    (∀ text, isAngleFree text = true → evaluate text .degrees = evaluate text .radians) ∧
    (∀ actions, (∀ earlier later, actions = earlier ++ .calculate :: later →
        isAngleFree ((Session.initial .degrees).run earlier).expression = true) →
      ∀ earlier later, actions = earlier ++ later → (Session.initial .radians).run earlier =
        { (Session.initial .degrees).run earlier with
          mode := ((Session.initial .degrees).run earlier).mode.toggle }) := by
  refine ⟨fun related tokens first second agrees before other => ?_, fun text free => ?_,
    fun actions free earlier later whole => ?_⟩
  · exact fun kept => agrees.parse kept
  · exact evaluate_of_isAngleFree free .degrees .radians
  · refine Session.opposed_run fun before rest same => free before (rest ++ later) ?_
    rw [whole, same, List.append_assoc, List.cons_append]

/-- A root is added to a quotient that was calculated in the opposite mode. -/
theorem angle_modes_matter_to_angles_not_to_roots :
    let root : List Token := [.atom "sqrt", .openParen, .number .zero, .closeParen]
    let actions : List Action := [.number "1", .operator "/", .number "4", .calculate, .toggleMode,
      .operator "+", .function "sqrt", .number "9", .function ")", .calculate]
    (Environment.standard .degrees).Agrees (· = ·) root (.standard .radians) ∧
    ((Environment.standard .degrees).parse root ()).1 =
      ((Environment.standard .radians).parse root ()).1 ∧
    isAngleFree "2sqrt(pi)" = true ∧
    evaluate "2sqrt(pi)" .degrees = evaluate "2sqrt(pi)" .radians ∧
    (∀ earlier later, actions = earlier ++ .calculate :: later →
      isAngleFree ((Session.initial .degrees).run earlier).expression = true) ∧
    ((Session.initial .radians).run actions).result =
      ((Session.initial .degrees).run actions).result := by
  intro root actions
  have agrees : (Environment.standard .degrees).Agrees (· = ·) root (.standard .radians) :=
    Environment.standard_agrees (by decide) .degrees .radians
  have free : isAngleFree "2sqrt(pi)" = true := by decide +kernel
  have all : ∀ earlier later, actions = earlier ++ .calculate :: later →
      isAngleFree ((Session.initial .degrees).run earlier).expression = true := by
    have each : ∀ index < actions.length, actions[index]? = some .calculate →
        isAngleFree ((Session.initial .degrees).run (actions.take index)).expression = true := by
      decide +kernel
    intro earlier later same
    have begun : actions.take earlier.length = earlier := by rw [same, List.take_left]
    rw [← begun]
    apply each
    · simp [same]
    · simp [same]
  have modes := @angle_modes_matter_to_angles Unit Unit
  have opposite := modes.2.2 actions all actions [] (List.append_nil actions).symm
  refine ⟨agrees, (modes.1 _ root _ _ agrees () () rfl).1, free, modes.2.1 _ free, all, ?_⟩
  rw [opposite]

end PocketCalc
