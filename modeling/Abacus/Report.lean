import Abacus.Eval.EvalError
import Abacus.Parser.ParseError

/-!
Error reports: records that say what went wrong, at which level, and because of what other report.

Reports can be put together by hand, so they allow any combination of attributes, and any code for
the class of an error. A report matches a pattern if it, or a report it is based on, is of the
pattern's class; some attributes of the pattern, when given, must agree too.
-/
namespace Abacus

inductive LexicalClass where
  | unterminatedString | unterminatedChar | charTooLong | integerOverflow | malformedFloat
  | unterminatedComment | unexpectedChar | readFailure
  | other (code : Nat)
  deriving DecidableEq, Repr

def LexicalClass.all : List LexicalClass :=
  [.unterminatedString, .unterminatedChar, .charTooLong, .integerOverflow, .malformedFloat,
    .unterminatedComment, .unexpectedChar, .readFailure]

def LexicalClass.ofCode (code : Nat) : LexicalClass :=
  all[code]?.getD (.other code)

inductive SyntacticClass where
  | expected | unexpected | badInteger | badFloat | lexical
  | other (code : Nat)
  deriving DecidableEq, Repr

def SyntacticClass.all : List SyntacticClass :=
  [.expected, .unexpected, .badInteger, .badFloat, .lexical]

def SyntacticClass.ofCode (code : Nat) : SyntacticClass :=
  all[code]?.getD (.other code)

inductive EvaluationClass where
  | undefined | notAssignable | divisionByZero | shiftRange | invalidNode
  | other (code : Nat)
  deriving DecidableEq, Repr

def EvaluationClass.all : List EvaluationClass :=
  [.undefined, .notAssignable, .divisionByZero, .shiftRange, .invalidNode]

def EvaluationClass.ofCode (code : Nat) : EvaluationClass :=
  all[code]?.getD (.other code)

inductive Report where
  /-- No report; what a report is based on if it has no cause. -/
  | absent
  | plain (text : String)
  | lexical (kind : LexicalClass) (char : Int) (cause : Report)
  | syntactic (kind : SyntacticClass) (want got : TokenRecord) (cause : Report)
  | evaluation (kind : EvaluationClass) (name : String) (operation : Operation) (count : Int32)
  deriving Inhabited

namespace Report

def message : Report → String
  | .absent => "<nil>"
  | .plain text => text
  | .lexical kind char cause =>
      match kind with
      | .unterminatedString => "Lexer Error: Unterminated String"
      | .unterminatedChar => "Lexer Error: Unterminated Character Constant"
      | .charTooLong => "Lexer Error: > 1 Character in Character Constant"
      | .integerOverflow => "Lexer Error: Integer Overflow"
      | .malformedFloat => "Lexer Error: Malformed Float"
      | .unterminatedComment => "Lexer Error: Unterminated Comment"
      | .unexpectedChar =>
          "Lexer Error: Unexpected Character " ++
            String.ofList (Text.quoted '\'' [Text.charOfCode char])
      | .readFailure => "Lexer Error: IO Error: " ++ cause.message
      | .other code => "Lexer Error: kind(" ++ toString code ++ ")"
  | .syntactic kind want got cause =>
      match kind with
      | .expected => "Parser Error: expected " ++ want.describe ++ ", got " ++ got.describe
      | .unexpected => "Parser Error: syntax error, unexpected " ++ got.describe
      | .badInteger => "Parser Error: Could not convert to int: " ++ cause.message
      | .badFloat => "Parser Error: Could not convert to float: " ++ cause.message
      | .lexical => cause.message
      | .other code => "Parser Error: kind(" ++ toString code ++ ")"
  | .evaluation kind name operation count =>
      match kind with
      | .undefined => "Eval Error: " ++ name ++ " is not defined"
      | .notAssignable => "Eval Error: left is not IDENT"
      | .divisionByZero => "Eval Error: division by zero in " ++ operation.text
      | .shiftRange =>
          "Eval Error: shift count " ++ toString count.toInt ++ " out of range in " ++
            operation.text
      | .invalidNode =>
          if operation.isLeaf then "Eval Error: missing node"
          else "Eval Error: malformed " ++ operation.text ++ " node"
      | .other code => "Eval Error: kind(" ++ toString code ++ ")"

def cause? : Report → Option Report
  | .lexical _ _ .absent | .syntactic _ _ _ .absent => none
  | .lexical _ _ cause | .syntactic _ _ _ cause => some cause
  | _ => none

/-- Whether a report is of the pattern's class. A pattern also fixes the unexpected character, the
undefined name, and the two tokens of an expectation, unless it leaves them blank. -/
def fits : Report → Report → Bool
  | .lexical kind char _, .lexical wanted wantedChar _ =>
      kind == wanted &&
        (kind != .unexpectedChar || wantedChar == 0 || char == wantedChar)
  | .syntactic kind want got _, .syntactic wanted wantedWant wantedGot _ =>
      kind == wanted &&
        (kind != .expected || wantedWant.same .blank ||
          (want.same wantedWant && got.same wantedGot))
  | .evaluation kind name _ _, .evaluation wanted wantedName _ _ =>
      kind == wanted && (kind != .undefined || wantedName == "" || name == wantedName)
  | _, _ => false

def isA : Report → Report → Bool
  | .lexical kind char cause, pattern =>
      fits (.lexical kind char cause) pattern || cause.isA pattern
  | .syntactic kind want got cause, pattern =>
      fits (.syntactic kind want got cause) pattern || cause.isA pattern
  | report, pattern => fits report pattern

end Report

inductive Family where
  | lexical (kind : LexicalClass)
  | syntactic (kind : SyntacticClass)
  | evaluation (kind : EvaluationClass)
  deriving DecidableEq, Repr

namespace Family

def all : List Family :=
  LexicalClass.all.map .lexical ++
    (SyntacticClass.all.filter (· ≠ .lexical)).map .syntactic ++
    EvaluationClass.all.map .evaluation

def pattern : Family → Report
  | .lexical kind => .lexical kind 0 .absent
  | .syntactic kind => .syntactic kind .blank .blank .absent
  | .evaluation kind => .evaluation kind "" .number 0

end Family

def Report.families (report : Report) : List Family :=
  Family.all.filter fun family => report.isA family.pattern

def LexError.report : LexError → Report
  | .unterminatedString => .lexical .unterminatedString 0 .absent
  | .unterminatedChar => .lexical .unterminatedChar 0 .absent
  | .charTooLong => .lexical .charTooLong 0 .absent
  | .integerOverflow => .lexical .integerOverflow 0 .absent
  | .malformedFloat => .lexical .malformedFloat 0 .absent
  | .unterminatedComment => .lexical .unterminatedComment 0 .absent
  | .unexpectedChar c => .lexical .unexpectedChar c.toNat .absent
  | .readFailure reason => .lexical .readFailure 0 (.plain reason)

def ParseError.report : ParseError → Report
  | .expected want got => .syntactic .expected (Token.symbol want).record got.record .absent
  | .unexpected got => .syntactic .unexpected .blank got.record .absent
  | .badInteger cause => .syntactic .badInteger .blank .blank (.plain cause.message)
  | .badFloat cause => .syntactic .badFloat .blank .blank (.plain cause.message)
  | .lexical cause => .syntactic .lexical .blank .blank cause.report

def EvalError.report : EvalError → Report
  | .undefined name => .evaluation .undefined name .number 0
  | .notAssignable => .evaluation .notAssignable "" .number 0
  | .divisionByZero op => .evaluation .divisionByZero "" (.binary op) 0
  | .shiftRange op count => .evaluation .shiftRange "" (.binary op) count
  | .missingNode => .evaluation .invalidNode "" .number 0
  | .malformed op => .evaluation .invalidNode "" op 0

end Abacus
