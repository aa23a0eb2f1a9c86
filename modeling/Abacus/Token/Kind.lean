import Abacus.Token.Symbol

/-!
The kinds of token, with their codes and names.
-/
namespace Abacus

inductive Kind where
  | eof | char | string | int | float | name
  | symbol (s : Symbol)
  | word (w : Word)
  | unknown (code : Nat)
  deriving DecidableEq, Repr

namespace Kind

def all : List Kind :=
  [.eof, .char, .string, .int, .float, .name] ++ Symbol.all.map .symbol ++ Word.all.map .word

def ofCode (code : Nat) : Kind :=
  all[code]?.getD (.unknown code)

def ofIdentifier (text : String) : Kind :=
  match Word.ofSpelling? text with
  | some w => .word w
  | none => .name

def text : Kind → String
  | .eof => "EOF"
  | .char => "CHAR"
  | .string => "STRING"
  | .int => "INT"
  | .float => "FLOAT"
  | .name => "NAME"
  | .symbol s => s.spelling
  | .word w => w.spelling
  | .unknown code => "kind(" ++ toString code ++ ")"

def isKeyword : Kind → Bool
  | .word _ => true
  | _ => false

def isLiteral : Kind → Bool
  | .char | .string | .int | .float | .name => true
  | _ => false

def isOperator : Kind → Bool
  | .symbol _ => true
  | _ => false

end Kind
end Abacus
