import Abacus.Eval
import Abacus.Parser
import Abacus.Report
import Abacus.Text.Lines
import Abacus.Tree.Shape

/-!
Sessions: statements run one after another in one environment, each printing its value.
-/
namespace Abacus

/-- An environment, and whether the shape of a term is checked before it is evaluated. -/
structure Session where
  env : Env := .empty
  verify : Bool := false

inductive RunError where
  | parse (error : ParseError)
  | eval (error : EvalError)
  | malformed (violations : List Violation)
  deriving DecidableEq, Repr

namespace RunError

def report : RunError → Report
  | .parse error => error.report
  | .eval error => error.report
  | .malformed violations => .plain (Violation.report violations)

def message (e : RunError) : String :=
  e.report.message

end RunError

structure Run where
  values : List Value
  error : Option RunError
  session : Session

def Run.out (run : Run) : String :=
  String.join (run.values.map fun value => value.text ++ "\n")

namespace Session

def evaluate (session : Session) (term : Term) : Except RunError Value × Session :=
  let violations := if session.verify then term.violations else []
  if violations.isEmpty then
    match term.eval session.env with
    | (.ok value, env) => (.ok value, { session with env := env })
    | (.error e, env) => (.error (.eval e), { session with env := env })
  else (.error (.malformed violations), session)

def runTerms (session : Session) : List Term → Run
  | [] => ⟨[], none, session⟩
  | .empty :: terms => session.runTerms terms
  | term :: terms =>
      match session.evaluate term with
      | (.ok value, session) =>
          let run := session.runTerms terms
          { run with values := value :: run.values }
      | (.error e, session) => ⟨[], some e, session⟩

def runScript (session : Session) (script : Script) : Run :=
  let run := session.runTerms script.statements
  { run with error := run.error <|> script.error.map .parse }

def run (session : Session) (source : Source) : Run :=
  session.runScript (.ofSource source)

end Session

inductive LoopError where
  | lineTooLong
  | readFailure (reason : String)
  deriving DecidableEq, Repr

def LoopError.message : LoopError → String
  | .lineTooLong => "bufio.Scanner: token too long"
  | .readFailure reason => reason

structure Dialogue where
  out : String
  err : String
  error : Option LoopError
  session : Session

namespace Session

def runLine (session : Session) (line : List UInt8) : Dialogue :=
  let run := session.run (.ofBytes line)
  let err := match run.error with
    | none => ""
    | some e => e.message ++ "\n"
  ⟨run.out, err, none, run.session⟩

def isExit (line : List UInt8) : Bool :=
  Text.trim (Text.Utf8.decode line) = ['e', 'x', 'i', 't']

inductive Turn where
  | stop (error : Option LoopError)
  | reply (dialogue : Dialogue)

def turn (session : Session) (line : List UInt8) : Turn :=
  let text := Text.Lines.dropReturn line
  if Text.Lines.limit ≤ line.length then .stop (some .lineTooLong)
  else if isExit text then .stop none
  else .reply (session.runLine text)

/-- Runs the lines of a dialogue with a prompt before each of them, and one before the end of
input, which gives the error `last`. -/
def runLines (prompt : String) (last : Option LoopError) : Session → List (List UInt8) → Dialogue
  | session, [] => ⟨prompt, "", last, session⟩
  | session, line :: lines =>
      match session.turn line with
      | .stop error => ⟨prompt, "", error, session⟩
      | .reply first =>
          let rest := runLines prompt last first.session lines
          ⟨prompt ++ first.out ++ rest.out, first.err ++ rest.err, rest.error, rest.session⟩

def endError : Ending → Option LoopError
  | .finished => none
  | .failed reason => some (.readFailure reason)

def loop (session : Session) (prompt : String) (bytes : List UInt8) (ending : Ending) : Dialogue :=
  runLines prompt (endError ending) session (Text.Lines.split bytes)

end Session
end Abacus
