import Abacus.CommandLine

/-!
The program: opens the file that the arguments name, or talks on standard input and output.
-/
namespace Abacus.CommandLine

def reason : IO.Error → String
  | .otherError _ details | .resourceBusy _ details | .resourceVanished _ details
  | .unsupportedOperation _ details | .hardwareFault _ details | .unsatisfiedConstraints _ details
  | .illegalOperation _ details | .protocolError _ details | .timeExpired _ details
  | .interrupted _ _ details | .noFileOrDirectory _ _ details | .invalidArgument _ _ details
  | .permissionDenied _ _ details | .resourceExhausted _ _ details
  | .inappropriateType _ _ details | .noSuchThing _ _ details | .alreadyExists _ _ details
  | .userError details => details.decapitalize
  | .unexpectedEof => "unexpected end of file"

def openFile (name : String) : IO (Except OpenError Entry) := do
  match ← (IO.FS.Handle.mk name .read).toBaseIO with
  | .error (.noFileOrDirectory _ _ _) => return .error .missing
  | .error (.inappropriateType _ _ _) => return .error .notFolder
  | .error e => return .error (.other (reason e))
  | .ok handle =>
      match ← handle.readBinToEnd.toBaseIO with
      | .error (.inappropriateType _ _ _) => return .ok .folder
      | .error e => return .ok (.unreadable (reason e))
      | .ok content => return .ok (.file content.toList)

partial def readLine (input : IO.FS.Stream) (line : List UInt8) : IO (List UInt8) := do
  let next ← input.read 1
  match next.toList with
  | [b] => if b = 0x0a then return (b :: line).reverse else readLine input (b :: line)
  | _ => return line.reverse

partial def converse (prompt : String) (session : Session) : IO UInt32 := do
  let output ← IO.getStdout
  output.putStr prompt
  output.flush
  match Text.Lines.split (← readLine (← IO.getStdin) []) with
  | [] => return 0
  | line :: _ =>
      match session.turn line with
      | .stop none => return 0
      | .stop (some e) =>
          IO.eprint ("error: " ++ e.message ++ "\n")
          return 1
      | .reply dialogue =>
          IO.print dialogue.out
          IO.eprint dialogue.err
          converse prompt dialogue.session

def Outcome.write (outcome : Outcome) : IO UInt32 := do
  IO.print outcome.out
  IO.eprint outcome.err
  return UInt32.ofNat outcome.code

end Abacus.CommandLine

open Abacus Abacus.CommandLine in
def main (arguments : List String) : IO UInt32 := do
  match Command.ofArguments arguments with
  | .dialogue options => converse options.prompt { verify := options.verify }
  | .file mode options name =>
      let entry ← openFile name
      ((Command.file mode options name).execute [] fun _ => entry).write
  | command => (command.execute [] fun _ => .error .missing).write
