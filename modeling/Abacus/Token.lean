import Abacus.Text.Quoted
import Abacus.Token.Kind

/-!
Tokens, and the flat records by which reports quote them.
-/
namespace Abacus

/-- One lexical unit. Numbers keep the text they were read from. -/
inductive Token where
  | eof
  | char (value : Char)
  | string (content : String)
  | int (value : Int32) (text : String)
  | float (value : Float) (text : String)
  | name (text : String)
  | symbol (s : Symbol)
  | word (w : Word)
  deriving DecidableEq, Repr

/-- A token as a report quotes it: a kind and every attribute a token may have. Reports can be put
together by hand, so no combination is ruled out. -/
structure TokenRecord where
  kind : Kind := .eof
  text : String := ""
  int : Int32 := 0
  float : Float := 0
  char : Int := 0
  deriving Repr

namespace TokenRecord

def same (a b : TokenRecord) : Bool :=
  a.kind == b.kind && a.text == b.text && a.int == b.int && a.float == b.float &&
    a.char == b.char

def blank : TokenRecord := {}

def describe (r : TokenRecord) : String :=
  match r.kind with
  | .char => "CHAR(" ++ String.ofList (Text.quoted '\'' [Text.charOfCode r.char]) ++ ")"
  | .string => "STRING(" ++ String.ofList (Text.quoted '"' r.text.toList) ++ ")"
  | .int | .float | .name => r.kind.text ++ "(" ++ r.text ++ ")"
  | kind => kind.text

def listing (r : TokenRecord) : String :=
  match r.kind with
  | .char => String.ofList (Text.listed '\'' [Text.charOfCode r.char])
  | .string => String.ofList (Text.listed '"' r.text.toList)
  | _ => r.text

end TokenRecord

namespace Token

def record : Token → TokenRecord
  | .eof => { kind := .eof }
  | .char value => { kind := .char, char := value.toNat }
  | .string content => { kind := .string, text := content }
  | .int value text => { kind := .int, text := text, int := value }
  | .float value text => { kind := .float, text := text, float := value }
  | .name text => { kind := .name, text := text }
  | .symbol s => { kind := .symbol s }
  | .word w => { kind := .word w }

def kind (t : Token) : Kind := t.record.kind

def describe (t : Token) : String := t.record.describe

def listing (t : Token) : String := t.record.listing

def ofIdentifier (text : String) : Token :=
  match Word.ofSpelling? text with
  | some w => .word w
  | none => .name text

end Token
end Abacus
