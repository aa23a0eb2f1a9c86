import Abacus.Text.Quoted

/-!
Command-line options.

An option starts with one dash or two. A switch takes a value only after an equals sign, any other
option there or as the next argument. The first argument that is no option ends the options, and so
does a lone double dash.
-/
namespace Abacus.CommandLine

structure Options where
  emitTokens : Bool := false
  emitTree : Bool := false
  treeFormat : String := "text"
  verify : Bool := false
  prompt : String := ">>> "
  version : Bool := false
  deriving DecidableEq, Repr

inductive Refusal where
  | help
  | badSyntax (argument : String)
  | undefined (name : String)
  | badBoolean (value name : String)
  | missingValue (name : String)
  deriving DecidableEq, Repr

def Refusal.message : Refusal → String
  | .help => ""
  | .badSyntax argument => "bad flag syntax: " ++ argument ++ "\n"
  | .undefined name => "flag provided but not defined: -" ++ name ++ "\n"
  | .badBoolean value name =>
      "invalid boolean value " ++ String.ofList (Text.quoted '"' value.toList) ++ " for -" ++
        name ++ ": parse error\n"
  | .missingValue name => "flag needs an argument: -" ++ name ++ "\n"

inductive Setter where
  | switch (set : Options → Bool → Options)
  | text (set : Options → String → Options)

def setter? : String → Option Setter
  | "emit-tokens" => some (.switch fun o b => { o with emitTokens := b })
  | "emit-ast" => some (.switch fun o b => { o with emitTree := b })
  | "ast-format" => some (.text fun o s => { o with treeFormat := s })
  | "verify" => some (.switch fun o b => { o with verify := b })
  | "prompt" => some (.text fun o s => { o with prompt := s })
  | "version" => some (.switch fun o b => { o with version := b })
  | _ => none

def boolean? : String → Option Bool
  | "1" | "t" | "T" | "TRUE" | "true" | "True" => some true
  | "0" | "f" | "F" | "FALSE" | "false" | "False" => some false
  | _ => none

inductive Argument where
  | operand
  | terminator
  | malformed
  | option (name : String) (value : Option String)
  deriving DecidableEq, Repr

def Argument.ofBody (body : List Char) : Argument :=
  match body with
  | [] => .malformed
  | c :: _ =>
      if c = '-' ∨ c = '=' then .malformed
      else
        let name := String.ofList (body.takeWhile (· ≠ '='))
        match body.dropWhile (· ≠ '=') with
        | [] => .option name none
        | _ :: value => .option name (some (String.ofList value))

def Argument.ofChars : List Char → Argument
  | ['-', '-'] => .terminator
  | '-' :: '-' :: body => .ofBody body
  | '-' :: c :: body => .ofBody (c :: body)
  | _ => .operand

def Options.read (options : Options) : List String → Except Refusal (Options × List String)
  | [] => .ok (options, [])
  | argument :: rest =>
      match Argument.ofChars argument.toList with
      | .operand => .ok (options, argument :: rest)
      | .terminator => .ok (options, rest)
      | .malformed => .error (.badSyntax argument)
      | .option name value =>
          match setter? name, value with
          | none, _ => .error (if name = "help" ∨ name = "h" then .help else .undefined name)
          | some (.switch set), none => (set options true).read rest
          | some (.switch set), some value =>
              match boolean? value with
              | some b => (set options b).read rest
              | none => .error (.badBoolean value name)
          | some (.text set), some value => (set options value).read rest
          | some (.text set), none =>
              match rest with
              | [] => .error (.missingValue name)
              | value :: rest => (set options value).read rest

end Abacus.CommandLine
