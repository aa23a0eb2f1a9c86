import Abacus.Parser.Literal
import Abacus.Token
import Abacus.Token.LexError

/-!
Why tokens make up no statement.
-/
namespace Abacus

inductive ParseError where
  | expected (want : Symbol) (got : Token)
  | unexpected (got : Token)
  | badInteger (cause : NumeralError)
  | badFloat (cause : NumeralError)
  | lexical (cause : LexError)
  deriving DecidableEq, Repr

/-- Whether the token at fault is left in place, to be met again by the next statement. -/
def ParseError.keepsToken : ParseError → Bool
  | .unexpected _ | .badInteger _ | .badFloat _ => true
  | .expected _ _ | .lexical _ => false

end Abacus
