import PocketCalc.CommandLine.Run
import PocketCalc.Proofs.CanonicalText
import PocketCalc.Proofs.Stretches
import PocketCalc.Proofs.SurroundingBlanks
import Mathlib.Logic.Function.Iterate

/-! What is printed for the lines of standard input. Each line prints what it would print as a
single expression, and all it takes from the lines before it is how often they changed the
angle mode. The session behind them carries an expression, a result, an error and a flag from
line to line, but none of these is ever read again. -/

namespace PocketCalc

private theorem Session.run_load_calculate (session : Session) {expression : String}
    (typed : expression.isEmpty = false) :
    session.run [.load expression, .calculate] = { session with
      expression := answer expression session.mode
      result := answer expression session.mode
      error := if answer expression session.mode == errorText then some errorText else none
      calculated := true } :=
  calculate_eq typed

namespace CommandLine

def trimmed (line : String) : String := .ofList (trimBlanks line.toList)

def leaves (line : String) : Bool := trimmed line == "exit" || trimmed line == "quit"

/-- The mode that some lines leave, which each line of that name changes once. -/
def modeAfter (mode : AngleMode) (lines : List String) : AngleMode :=
  AngleMode.toggle^[lines.countP (trimmed · == "mode")] mode

/-- What a line prints on its own. An expression is that of a single run, blanks and all. -/
def Settings.printed (settings : Settings) (mode : AngleMode) (line : String) : String :=
  if trimmed line = "" ∨ trimmed line = "clear" then ""
  else if trimmed line = "mode" then "mode: " ++ mode.toggle.text ++ "\n"
  else (runExpression { settings with mode } line).output

def Settings.transcript (settings : Settings) (mode : AngleMode) (lines : List String) : String :=
  .join (lines.mapIdx fun index line => settings.printed (modeAfter mode (lines.take index)) line)

inductive Ending : List (Option String) → String → Nat → Prop
  | exhausted : Ending [] "" 0
  | left {line lines} : leaves line = true → Ending (some line :: lines) "" 0
  | broken {lines} : Ending (none :: lines) "keypad: stream did not contain valid UTF-8\n" 1

theorem modeAfter_cons (mode : AngleMode) (line : String) (lines : List String) :
    modeAfter mode (line :: lines) = modeAfter (modeAfter mode [line]) lines := by
  simp only [modeAfter, List.countP_cons, List.countP_nil, Nat.zero_add]
  rw [Function.iterate_add_apply]

theorem Settings.transcript_cons (settings : Settings) (mode : AngleMode) (line : String)
    (lines : List String) : settings.transcript mode (line :: lines) =
      settings.printed mode line ++ settings.transcript (modeAfter mode [line]) lines := by
  simp only [transcript, List.mapIdx_cons, String.join_cons, List.take_zero, List.take_succ_cons]
  have first : modeAfter mode [] = mode := rfl
  have later (index : Nat) : modeAfter mode (line :: lines.take index) =
      modeAfter (modeAfter mode [line]) (lines.take index) := modeAfter_cons _ _ _
  simp only [first, later]

theorem Settings.report_calculated (settings : Settings) (session : Session) {expression : String}
    (typed : expression.isEmpty = false) :
    settings.report (session.run [.load expression, .calculate]) ++ "\n" =
      (runExpression { settings with mode := session.mode } expression).output := by
  rw [session.run_load_calculate typed]
  by_cases failed : answer expression session.mode = errorText <;>
    simp [report, runExpression, render, failed]

/-- An expression is answered the same with the blanks around it. -/
theorem runExpression_trimmed (settings : Settings) (line : String) :
    runExpression settings (trimmed line) = runExpression settings line := by
  simp only [runExpression, trimmed, answer_trimBlanks]

inductive Asks (line : String) : Command → Prop
  | nothing : trimmed line = "" → Asks line .nothing
  | leave : leaves line = true → Asks line .leave
  | toggleMode : trimmed line = "mode" → Asks line .toggleMode
  | clear : trimmed line = "clear" → Asks line .clear
  | calculate : trimmed line ∉ ["", "mode", "clear"] → Asks line (.calculate (trimmed line))

private theorem ofLine_asks (line : String) : Asks line (Command.ofLine line) := by
  unfold Command.ofLine
  split
  next same => exact .nothing same
  next same => exact .leave (by simp [leaves, trimmed, same])
  next same => exact .leave (by simp [leaves, trimmed, same])
  next same => exact .toggleMode same
  next same => exact .clear same
  next notEmpty _ _ notMode notClear =>
    refine .calculate fun member => ?_
    simp only [List.mem_cons, List.not_mem_nil, or_false] at member
    rcases member with same | same | same
    · exact notEmpty same
    · exact notMode same
    · exact notClear same

private theorem ofLine_of_leaves {line : String} (asks : leaves line = true) :
    Command.ofLine line = .leave := by
  simp only [leaves, trimmed, Bool.or_eq_true, beq_iff_eq] at asks
  unfold Command.ofLine
  rcases asks with same | same
  · rw [same]
    rfl
  · rw [same]
    rfl

/-- A line that does not ask to leave prints what it prints on its own, and goes on with some
session of which only the mode is known. -/
theorem runLines_cons (settings : Settings) (session : Session) {line : String}
    (stays : leaves line = false) (lines : List (Option String)) :
    ∃ next : Session, next.mode = modeAfter session.mode [line] ∧
      runLines settings session (some line :: lines) =
        ⟨settings.printed session.mode line ++ (runLines settings next lines).output,
          (runLines settings next lines).status⟩ := by
  rw [runLines]
  have asked := ofLine_asks line
  generalize Command.ofLine line = command at asked ⊢
  cases asked with
  | nothing same =>
    refine ⟨session, ?_, ?_⟩
    · simp [modeAfter, same]
    · simp [Settings.printed, same]
  | leave asks =>
    rw [stays] at asks
    contradiction
  | toggleMode same =>
    refine ⟨session.step .toggleMode, ?_, ?_⟩
    · simp [modeAfter, same, Session.step]
    · simp [Settings.printed, Outcome.after, same, Session.step]
  | clear same =>
    refine ⟨session.step .clear, ?_, ?_⟩
    · simp [modeAfter, same, Session.step, Session.initial]
    · simp [Settings.printed, same]
  | calculate other =>
    simp only [List.mem_cons, List.not_mem_nil, or_false, not_or] at other
    obtain ⟨notEmpty, notMode, notClear⟩ := other
    have typed : (trimmed line).isEmpty = false := by simpa using notEmpty
    refine ⟨session.run [.load (trimmed line), .calculate], ?_, ?_⟩
    · simp [session.run_load_calculate typed, modeAfter, notMode]
    · have printed : settings.printed session.mode line =
          (runExpression { settings with mode := session.mode } line).output := by
        simp [Settings.printed, notEmpty, notMode, notClear]
      -- The session is given the text without its blanks, a single run the text with them.
      rw [printed, ← runExpression_trimmed, ← settings.report_calculated session typed]
      rfl

/-- The lines that are run are text and do not ask to leave. Which they are does not depend on
the session, and what they print depends only on its mode. -/
theorem exists_transcript (settings : Settings) (lines : List (Option String)) :
    ∃ executed rest message status, lines = executed.map some ++ rest ∧
      (∀ line ∈ executed, leaves line = false) ∧ Ending rest message status ∧
      ∀ session, runLines settings session lines =
        ⟨settings.transcript session.mode executed ++ message, status⟩ := by
  induction lines with
  | nil =>
    refine ⟨[], [], _, _, rfl, List.forall_mem_nil _, .exhausted, fun session => ?_⟩
    rw [runLines]
    rfl
  | cons line lines ih =>
    cases line with
    | none =>
      refine ⟨[], _, _, _, rfl, List.forall_mem_nil _, .broken, fun session => ?_⟩
      rw [runLines]
      rfl
    | some line =>
      cases asks : leaves line with
      | true =>
        refine ⟨[], _, _, _, rfl, List.forall_mem_nil _, .left asks, fun session => ?_⟩
        rw [runLines, ofLine_of_leaves asks]
        rfl
      | false =>
        obtain ⟨executed, rest, message, status, same, stay, ending, outcome⟩ := ih
        refine ⟨line :: executed, rest, message, status, ?_, ?_, ending, fun session => ?_⟩
        · rw [same, List.map_cons, List.cons_append]
        · exact List.forall_mem_cons.mpr ⟨asks, stay⟩
        · obtain ⟨next, mode, output⟩ := runLines_cons settings session asks lines
          rw [output, outcome, settings.transcript_cons, mode, String.append_assoc]

/-- Standard input is cut into lines at its newlines, a return before one being a blank at the
end of the line. The lines that are run are text and do not ask to leave. Together they print,
in their order, what each prints as a single expression or command in the mode that the lines
before it leave. Then the input ends or a line asks to leave, with status 0, or a line is not
text, which is reported with status 1. A run that begins with any other session of the same mode
is the same run. -/
theorem input_prints_line_by_line (settings : Settings) (input : ByteArray) :
    (∃ lines : List (List UInt8), [10].intercalate lines = input.toList ∧
      (∀ line ∈ lines, 10 ∉ line) ∧
      ∃ executed rest message status,
        (lines.map fun line => String.fromUTF8? ⟨line.toArray⟩) = executed.map some ++ rest ∧
        (∀ line ∈ executed, leaves line = false) ∧ Ending rest message status ∧
        run (.lines settings) input =
          ⟨settings.transcript settings.mode executed ++ message, status⟩) ∧
    ∀ session : Session, runLines settings session (linesOf input) =
      runLines settings (.initial session.mode) (linesOf input) := by
  obtain ⟨executed, rest, message, status, cut, stay, ending, outcome⟩ :=
    exists_transcript settings (linesOf input)
  refine ⟨⟨input.toList.splitOn 10, List.intercalate_splitOn 10, ?_, ?_⟩, fun session => ?_⟩
  · intro line member newline
    rw [List.splitOn_eq_splitOnP] at member
    have none := (mem_splitOnP member).2 10 newline
    contradiction
  · exact ⟨executed, rest, message, status, cut, stay, ending, outcome (.initial settings.mode)⟩
  · rw [outcome, outcome]
    rfl

end CommandLine
end PocketCalc
