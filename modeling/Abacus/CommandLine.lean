import Abacus.CommandLine.Folder
import Abacus.CommandLine.Options
import Abacus.Session
import Abacus.Tree.Json

/-!
The program as it is called: what its arguments ask for, and what it then writes.
-/
namespace Abacus
namespace CommandLine

def usage : String :=
  "madx 0.1.0-dev\n\n" ++
  "Usage: madx [options] [file.mx]\n\n" ++
  "Without a file, madx reads statements from standard input.\n\n" ++
  "Options:\n" ++
  "  -ast-format string\n    \tAST output format (text or json) (default \"text\")\n" ++
  "  -emit-ast\n    \tOutput AST\n" ++
  "  -emit-tokens\n    \tOutput token stream\n" ++
  "  -prompt string\n    \tREPL prompt (default \">>> \")\n" ++
  "  -verify\n    \tVerify AST shape before evaluation\n" ++
  "  -version\n    \tPrint version\n"

def versionText : String :=
  "madx version 0.1.0-dev\ngo version GOVERSION\n"

inductive Mode where
  | tokens
  | trees
  | run
  deriving DecidableEq, Repr

inductive Command where
  | refuse (refusal : Refusal)
  | version
  | noFile
  | dialogue (options : Options)
  | file (mode : Mode) (options : Options) (name : String)
  deriving DecidableEq, Repr

def Command.ofArguments (arguments : List String) : Command :=
  match Options.read {} arguments with
  | .error refusal => .refuse refusal
  | .ok (options, operands) =>
      if options.version then .version
      else match operands with
        | [] =>
            if options.emitTokens || options.emitTree then .noFile else .dialogue options
        | name :: _ =>
            let mode :=
              if options.emitTokens then .tokens else if options.emitTree then .trees else .run
            .file mode options name

structure Outcome where
  code : Nat := 0
  out : String := ""
  err : String := ""
  deriving DecidableEq, Repr

def Outcome.after (out : String) (outcome : Outcome) : Outcome :=
  { outcome with out := out ++ outcome.out }

def listingLine (first second : String) : String :=
  first ++ String.ofList (List.replicate (12 - first.length) ' ') ++ " " ++ second ++ "\n"

def tokenLine (token : Token) : String :=
  listingLine token.kind.text token.listing

def listingError (name : String) (e : LexError) : Outcome :=
  { code := 1, out := "\nErrors:\n  " ++ name ++ ": " ++ e.report.message ++ "\n" }

def listItems (name : String) (ending : Ending) : List Item → Outcome
  | [] =>
      match ending with
      | .finished => { out := tokenLine .eof }
      | .failed reason => listingError name (.readFailure reason)
  | .error e :: _ => listingError name e
  | .ok token :: items => (listItems name ending items).after (tokenLine token)

def listTokens (name : String) (source : Source) : Outcome :=
  let stream := source.stream
  let rule := String.ofList (List.replicate 12 '-')
  let heading := listingLine "TOKEN" "LITERAL" ++
    listingLine rule (String.ofList (List.replicate 20 '-'))
  (listItems name stream.ending stream.items).after heading

def fileError (name message : String) : Outcome :=
  { code := 1, err := name ++ ": " ++ message ++ "\n" }

def renderTree (format : String) (term : Term) : Except JsonError String :=
  if format = "json" then term.json else .ok term.dump

def printTerms (options : Options) (name : String) (error : Option ParseError) :
    List Term → Outcome
  | [] =>
      match error with
      | none => {}
      | some e => fileError name e.report.message
  | term :: terms =>
      let violations := if options.verify then term.violations else []
      if violations.isEmpty then
        match renderTree options.treeFormat term with
        | .ok text => (printTerms options name error terms).after text
        | .error e => { code := 1, err := "error: " ++ e.message ++ "\n" }
      else fileError name (Violation.report violations)

def printTrees (options : Options) (name : String) (source : Source) : Outcome :=
  let script := Script.ofSource source
  printTerms options name script.error script.statements

def runFile (options : Options) (name : String) (source : Source) : Outcome :=
  let session : Session := { verify := options.verify }
  let run := session.run source
  match run.error with
  | none => { out := run.out }
  | some e => { fileError name e.message with out := run.out }

def runMode (mode : Mode) (options : Options) (name : String) (source : Source) : Outcome :=
  match mode with
  | .tokens => listTokens name source
  | .trees => printTrees options name source
  | .run => runFile options name source

def runDialogue (options : Options) (input : List UInt8) : Outcome :=
  let session : Session := { verify := options.verify }
  let dialogue := session.loop options.prompt input .finished
  match dialogue.error with
  | none => { out := dialogue.out, err := dialogue.err }
  | some e =>
      { code := 1, out := dialogue.out, err := dialogue.err ++ "error: " ++ e.message ++ "\n" }

def Command.execute (command : Command) (input : List UInt8)
    (openEntry : String → Except OpenError Entry) : Outcome :=
  match command with
  | .refuse refusal =>
      { code := if refusal = .help then 0 else 2, err := refusal.message ++ usage }
  | .version => { out := versionText }
  | .noFile =>
      { code := 1, err := "error: no input file\nusage: madx [options] <file.mx>\n" }
  | .dialogue options => runDialogue options input
  | .file mode options name =>
      match openEntry name with
      | .error e => { code := 1, err := "error: " ++ e.message name ++ "\n" }
      | .ok entry => runMode mode options name (entry.source name)

end CommandLine
end Abacus
