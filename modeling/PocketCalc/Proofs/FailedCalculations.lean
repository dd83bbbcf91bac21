import PocketCalc.Proofs.SessionSteps

/-! How a session gets over a failed calculation. What is typed next starts a new expression, and
the error goes with the old one. Only a backspace edits the error text itself; the error then
stays behind until the next calculation or until a new expression is started. -/

namespace PocketCalc
namespace Session

def Truthful (session : Session) : Prop :=
  session.error = if session.result = errorText then some errorText else none

/-- An error is there only while the calculation that failed is shown. -/
def ShowsFailure (session : Session) : Prop :=
  session.error ≠ none →
    session.calculated = true ∧ session.expression = errorText ∧ session.result = errorText

variable {session after : Session} {action : Action}

private theorem Moves.truthful (moves : session.Moves action after)
    (unreported : ∀ error, action ≠ .setError error) (truthful : session.Truthful) :
    after.Truthful := by
  cases moves with
  | started => rfl
  | edited => exact truthful
  | calculated => simp [Truthful]
  | idle => exact truthful
  | toggled => exact truthful
  | reported error => exact absurd rfl (unreported error)

private theorem Truthful.result_eq (truthful : session.Truthful) (failed : session.error ≠ none) :
    session.result = errorText := by
  rw [Truthful] at truthful
  split at truthful
  · assumption
  · contradiction

private theorem Truthful.error_eq (truthful : session.Truthful) (failed : session.error ≠ none) :
    session.error = some errorText :=
  truthful.trans (if_pos (truthful.result_eq failed))

/-- A backspace is the one action that can part an error from the calculation that failed. -/
theorem Moves.calculated_of_error (moves : session.Moves action after)
    (unreported : ∀ error, action ≠ .setError error)
    (erases : action = .backspace → session.error = none)
    (shown : session.error ≠ none → session.calculated = true) :
    after.error ≠ none → after.calculated = true := by
  cases moves with
  | started => exact fun failed => absurd rfl failed
  | edited expression once =>
    intro failed
    have backspace := once (shown failed) (Option.isSome_iff_ne_none.mpr failed)
    exact absurd (erases backspace) failed
  | calculated => exact fun _ => rfl
  | idle => exact shown
  | toggled => exact shown
  | reported error => exact absurd rfl (unreported error)

theorem showsFailure_iff (coherent : session.Coherent) (truthful : session.Truthful) :
    session.ShowsFailure ↔ (session.error ≠ none → session.calculated = true) := by
  constructor
  · exact fun shows failed => (shows failed).1
  · intro shown failed
    have result := truthful.result_eq failed
    exact ⟨shown failed, (coherent.shown (shown failed)).1.trans result, result⟩

section
variable {mode : AngleMode} {actions : List Action}
  (unreported : ∀ error, .setError error ∉ actions)
include unreported

private theorem unreported_of_mem (member : action ∈ actions) (error : Option String) :
    action ≠ .setError error := by
  rintro rfl
  exact unreported error member

theorem run_truthful : ((initial mode).run actions).Truthful := by
  refine run_keeps Truthful rfl fun earlier action later same truthful => ?_
  have member : action ∈ actions := by simp [same]
  exact (step_moves _ action).truthful (unreported_of_mem unreported member) truthful

theorem run_showsFailure (erases : ∀ earlier later, actions = earlier ++ .backspace :: later →
      ((initial mode).run earlier).error = none) :
    ((initial mode).run actions).ShowsFailure := by
  rw [showsFailure_iff (run_coherent mode actions) (run_truthful unreported)]
  refine run_keeps (fun session => session.error ≠ none → session.calculated = true) (absurd rfl)
    fun earlier action later same shown => ?_
  have member : action ∈ actions := by simp [same]
  refine (step_moves _ action).calculated_of_error (unreported_of_mem unreported member) ?_ shown
  rintro rfl
  exact erases earlier later same

theorem always_showsFailure_iff :
    (∀ earlier later, actions = earlier ++ later → ((initial mode).run earlier).ShowsFailure) ↔
      ∀ earlier later, actions = earlier ++ .backspace :: later →
        ((initial mode).run earlier).error = none := by
  constructor
  · intro shows earlier later same
    by_contra failed
    have shown : ((initial mode).run (earlier ++ [.backspace])).ShowsFailure :=
      shows _ later (by simp [same])
    rw [run_append] at shown
    generalize (initial mode).run earlier = session at shown failed
    exact Bool.false_ne_true (shown failed).1
  · intro erases earlier later same
    refine run_showsFailure (fun error member => ?_) fun before rest inside => ?_
    · apply unreported error
      simp [same, member]
    · apply erases before (rest ++ later)
      simp [same, inside]

end

theorem step_of_failed (calculated : session.calculated = true) (failed : session.error ≠ none)
    (key : String) : ∀ typed ∈ [Action.number key, .operator key, .function key],
      session.step typed = (initial session.mode).step typed := by
  have fresh : session.afresh = initial session.mode := by simp [afresh, calculated]
  have restarted : session.continued = initial session.mode := by
    simp [continued, calculated, Option.isSome_iff_ne_none.mpr failed]
  have initially : (initial session.mode).afresh = initial session.mode := rfl
  have continuing : (initial session.mode).continued = initial session.mode := rfl
  intro typed member
  simp only [List.mem_cons, List.not_mem_nil, or_false] at member
  rcases member with rfl | rfl | rfl
  · simp only [step, fresh, initially]
  · simp only [step, restarted, continuing]
  · simp only [step, fresh, initially]

theorem calculate_of_failed (typed : session.expression ≠ "")
    (failed : answer session.expression session.mode = errorText) :
    session.step .calculate = ⟨errorText, errorText, session.mode, some errorText, true⟩ := by
  have present : session.expression.isEmpty = false := by simpa using typed
  simp only [step, calculate_eq present, failed, beq_self_eq_true, if_true]

/-- As long as no error is set from outside, an error goes with the error text as result, and
as expression if the session counts as calculated. Errors are there only while a failed
calculation is shown, exactly if no backspace is ever taken at one. After a failed calculation a
number, an operator or a function key does what it does in a new session of the same mode, while
a backspace leaves the error text without its last letter, and the error. -/
theorem failures_give_way_to_typing (mode : AngleMode) (actions : List Action)
    (unreported : ∀ error, .setError error ∉ actions) :
    let session := (initial mode).run actions
    (session.error ≠ none → session.error = some errorText ∧ session.result = errorText ∧
      (session.calculated = true → session.expression = errorText)) ∧
    ((∀ earlier later, actions = earlier ++ later → ((initial mode).run earlier).ShowsFailure) ↔
      ∀ earlier later, actions = earlier ++ .backspace :: later →
        ((initial mode).run earlier).error = none) ∧
    (session.expression ≠ "" → answer session.expression session.mode = errorText →
      let failed := session.step .calculate
      failed.ShowsFailure ∧ failed.error = some errorText ∧
      (∀ key, ∀ typed ∈ [Action.number key, .operator key, .function key],
        failed.step typed = (initial session.mode).step typed) ∧
      failed.step .backspace = ⟨"Erro", errorText, session.mode, some errorText, false⟩) := by
  intro session
  have truthful : session.Truthful := run_truthful unreported
  have coherent : session.Coherent := run_coherent mode actions
  refine ⟨fun failed => ⟨truthful.error_eq failed, truthful.result_eq failed, fun calculated => ?_⟩,
    always_showsFailure_iff unreported, ?_⟩
  · exact (coherent.shown calculated).1.trans (truthful.result_eq failed)
  · intro typed failed
    rw [calculate_of_failed typed failed]
    refine ⟨fun _ => ⟨rfl, rfl, rfl⟩, rfl, fun key => ?_, ?_⟩
    · exact step_of_failed rfl (Option.some_ne_none _) key
    · have erased : eraseKey errorText.toList = "Erro".toList := by decide
      simp only [step, erased, String.ofList_toList]

/-- An operator after a division by zero starts anew. -/
theorem failures_give_way_to_typing_by_zero :
    let actions : List Action := [.number "1", .operator "/", .number "0"]
    let session := (initial .degrees).run actions
    (∀ error, .setError error ∉ actions) ∧ session.expression ≠ "" ∧
    answer session.expression session.mode = errorText ∧
    (session.step .calculate).step (.operator "-") =
      (initial session.mode).step (.operator "-") := by
  intro actions session
  have unreported : ∀ error, Action.setError error ∉ actions := by simp [actions]
  have typed : session.expression ≠ "" := by decide +kernel
  have failed : answer session.expression session.mode = errorText := by decide +kernel
  have outcome := (failures_give_way_to_typing .degrees actions unreported).2.2 typed failed
  exact ⟨unreported, typed, failed, outcome.2.2.1 "-" (.operator "-") (by simp)⟩

/-- A backspace at a failed division leaves the error with an expression that has not failed. -/
theorem backspace_keeps_the_error :
    let failed := (initial .degrees).run [.number "1", .operator "/", .number "0", .calculate]
    let erased := failed.step .backspace
    failed.error = some errorText ∧ erased.error = some errorText ∧ erased.calculated = false ∧
    erased.expression ≠ errorText ∧ erased ≠ (initial failed.mode).step .backspace := by
  decide +kernel

end Session
end PocketCalc
