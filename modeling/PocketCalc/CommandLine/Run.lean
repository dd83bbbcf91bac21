import PocketCalc.CommandLine.Options
import PocketCalc.Session

/-! The program behind the command line: one expression from its words, or one from
each line of standard input. -/

namespace PocketCalc
namespace CommandLine

structure Outcome where
  output : String
  status : Nat
deriving DecidableEq

def Outcome.after (line : String) (outcome : Outcome) : Outcome :=
  { outcome with output := line ++ "\n" ++ outcome.output }

def Settings.render (settings : Settings) (result : String) : String :=
  if settings.raw then result else formatNumber result (some settings.precision)

/-- Print the result of one expression, the status telling whether it has one. -/
def runExpression (settings : Settings) (text : String) : Outcome :=
  let result := answer text settings.mode
  if result == errorText then ⟨errorText ++ "\n", 1⟩ else ⟨settings.render result ++ "\n", 0⟩

inductive Command where
  | nothing
  | leave
  | toggleMode
  | clear
  | calculate (expression : String)
deriving DecidableEq

/-- Blanks around a line mean nothing. -/
def Command.ofLine (line : String) : Command :=
  match String.ofList (trimBlanks line.toList) with
  | "" => .nothing
  | "exit" | "quit" => .leave
  | "mode" => .toggleMode
  | "clear" => .clear
  | expression => .calculate expression

def Settings.report (settings : Settings) (session : Session) : String :=
  match session.error with
  | some error => error
  | none => settings.render session.result

/-- Run the commands of successive lines. A line that is not text ends the run. -/
def runLines (settings : Settings) (session : Session) : List (Option String) → Outcome
  | [] => ⟨"", 0⟩
  | none :: _ => ⟨"keypad: stream did not contain valid UTF-8\n", 1⟩
  | some line :: lines =>
    match Command.ofLine line with
    | .nothing => runLines settings session lines
    | .leave => ⟨"", 0⟩
    | .toggleMode =>
      let session := session.step .toggleMode
      (runLines settings session lines).after ("mode: " ++ session.mode.text)
    | .clear => runLines settings (session.step .clear) lines
    | .calculate expression =>
      let session := session.run [.load expression, .calculate]
      (runLines settings session lines).after (settings.report session)

/-- The lines of standard input, each as text if its bytes are UTF-8. -/
def linesOf (input : ByteArray) : List (Option String) :=
  (input.toList.splitOn 10).map fun line => String.fromUTF8? ⟨line.toArray⟩

def run (request : Request) (input : ByteArray) : Outcome :=
  match request with
  | .version => ⟨"keypad 0.1.0\n", 0⟩
  | .refused => ⟨"", 1⟩
  | .expression settings text => runExpression settings text
  | .lines settings => runLines settings (.initial settings.mode) (linesOf input)

end CommandLine
end PocketCalc
