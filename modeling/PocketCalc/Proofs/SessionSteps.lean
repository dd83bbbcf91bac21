import PocketCalc.Proofs.DisplayedAnswers
import PocketCalc.Session

/-! What an action does to a session, and what every session keeps. An action starts a new
expression, edits the one there is, replaces it by its answer, or leaves it alone. A result is
therefore always an answer, and a session that counts as calculated shows its result. -/

namespace PocketCalc
namespace Session

/-- What an action may make of a session. A failed calculation is only edited by taking its last
character away; whatever else is typed starts a new expression. -/
inductive Moves (session : Session) : Action → Session → Prop
  | started {action} (expression : String) :
      Moves session action { initial session.mode with expression }
  | edited {action} (expression : String) :
      (session.calculated = true → session.error.isSome = true → action = .backspace) →
      Moves session action { session with expression, calculated := false }
  | calculated : session.expression.isEmpty = false →
      Moves session .calculate { session with
        expression := answer session.expression session.mode
        result := answer session.expression session.mode
        error := if answer session.expression session.mode == errorText then some errorText else none
        calculated := true }
  | idle : session.expression.isEmpty = true → Moves session .calculate session
  | toggled : Moves session .toggleMode { session with mode := session.mode.toggle }
  | reported (error : Option String) : Moves session (.setError error) { session with error }

variable {session after : Session} {action : Action}

private theorem exists_append (session : Session) (text : String) :
    ∃ expression, session.append text = { session with expression } := by
  unfold append
  split
  · exact ⟨_, rfl⟩
  · exact ⟨session.expression, rfl⟩

private theorem moves_afresh (session : Session) (action : Action) (text : String) :
    session.Moves action (session.afresh.append text) := by
  obtain ⟨expression, appended⟩ := session.afresh.exists_append text
  rw [appended]
  unfold afresh
  split
  · exact .started expression
  next editing =>
    have kept : session.calculated = false := Bool.eq_false_iff.mpr editing
    have edited : session.Moves action { session with expression, calculated := false } :=
      .edited expression fun calculated => absurd calculated editing
    rwa [← kept] at edited

private theorem moves_continued (session : Session) (action : Action) (text : String) :
    session.Moves action (session.continued.append text) := by
  obtain ⟨expression, appended⟩ := session.continued.exists_append text
  rw [appended]
  unfold continued
  split
  · exact .started expression
  next succeeded =>
    refine .edited expression fun calculated failed => ?_
    exact absurd (Bool.and_eq_true_iff.mpr ⟨calculated, failed⟩) succeeded

private theorem moves_calculate (session : Session) :
    session.Moves .calculate session.calculate := by
  by_cases empty : session.expression.isEmpty = true
  · have same : session.calculate = session := by simp only [calculate, empty, if_true]
    rw [same]
    exact .idle empty
  · have typed := Bool.eq_false_iff.mpr empty
    rw [calculate_eq typed]
    exact .calculated typed

theorem step_moves (session : Session) (action : Action) :
    session.Moves action (session.step action) := by
  cases action with
  | number key => exact session.moves_afresh _ key
  | operator key => exact session.moves_continued _ key
  | function key => exact session.moves_afresh _ (typedBy key)
  | calculate => exact session.moves_calculate
  | clear => exact .started ""
  | backspace => exact .edited _ fun _ _ => rfl
  | toggleMode => exact .toggled
  | setError error => exact .reported error
  | load expression => exact .started expression

theorem run_append (session : Session) (earlier later : List Action) :
    session.run (earlier ++ later) = (session.run earlier).run later := List.foldl_append

/-- What each action of a run keeps, the run keeps. -/
theorem run_keeps (Kept : Session → Prop) {session : Session} {actions : List Action}
    (begun : Kept session)
    (kept : ∀ earlier action later, actions = earlier ++ action :: later →
      Kept (session.run earlier) → Kept ((session.run earlier).step action)) :
    Kept (session.run actions) := by
  induction actions generalizing session with
  | nil => exact begun
  | cons first others ih =>
    refine ih (kept [] first others rfl begun) fun earlier action later same => ?_
    exact kept (first :: earlier) action later (by rw [same, List.cons_append])

/-- A result is none, the error text or that of a finite number, and a calculated session shows
it. -/
structure Coherent (session : Session) : Prop where
  result : session.result = "" ∨ session.result = errorText ∨
    ∃ value : Binary64, value.isFinite = true ∧ session.result = canonical value
  shown : session.calculated = true → session.expression = session.result ∧ session.result ≠ ""

theorem initial_coherent (mode : AngleMode) : (initial mode).Coherent := ⟨.inl rfl, nofun⟩

theorem Moves.coherent (moves : session.Moves action after) (coherent : session.Coherent) :
    after.Coherent := by
  cases moves with
  | started => exact ⟨.inl rfl, nofun⟩
  | edited => exact ⟨coherent.result, nofun⟩
  | calculated =>
    refine ⟨.inr ?_, fun _ => ⟨rfl, ?_⟩⟩
    · rcases answer_eq_errorText_or session.expression session.mode with
        failed | ⟨negative, magnitude, same⟩
      · exact .inl failed
      · exact .inr ⟨_, rfl, same⟩
    · intro empty
      have present := answer_isEmpty session.expression session.mode
      rw [String.isEmpty_eq_false_iff] at present
      exact present empty
  | idle => exact coherent
  | toggled | reported => exact ⟨coherent.result, coherent.shown⟩

theorem run_coherent (mode : AngleMode) (actions : List Action) :
    ((initial mode).run actions).Coherent :=
  run_keeps Coherent (initial_coherent mode) fun _ action _ _ => (step_moves _ action).coherent

private theorem Coherent.formattedResult_ne (coherent : session.Coherent) (precision : Option Nat) :
    session.formattedResult precision ≠ some errorText := by
  unfold formattedResult
  split
  · exact nofun
  next shown =>
    simp only [Bool.or_eq_true, String.isEmpty_iff, beq_iff_eq, not_or] at shown
    rcases coherent.result with none | failed | ⟨value, finite, same⟩
    · exact absurd none shown.1
    · exact absurd failed shown.2
    · intro error
      have infinite := (formatNumber_canonical_eq_errorText_iff value precision).mp
        (same ▸ Option.some.inj error)
      rw [finite] at infinite
      contradiction

/-- Whatever was done to a session, its result is empty, the error text or the canonical text of
a finite number, it shows that result if it counts as calculated, and no result is formatted to
the error text. -/
theorem results_stay_canonical (mode : AngleMode) (actions : List Action) :
    let session := (initial mode).run actions
    (session.result = "" ∨ session.result = errorText ∨
      ∃ value : Binary64, value.isFinite = true ∧ session.result = canonical value) ∧
    (session.calculated = true → session.expression = session.result ∧ session.result ≠ "") ∧
    ∀ precision, session.formattedResult precision ≠ some errorText := by
  have coherent := run_coherent mode actions
  exact ⟨coherent.result, coherent.shown, coherent.formattedResult_ne⟩

end Session
end PocketCalc
