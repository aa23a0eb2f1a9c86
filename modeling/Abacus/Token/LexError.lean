import Abacus.Source

/-!
Why a text has no next token.
-/
namespace Abacus

inductive LexError where
  | unterminatedString
  | unterminatedChar
  | charTooLong
  | integerOverflow
  | malformedFloat
  | unterminatedComment
  | unexpectedChar (c : Char)
  | readFailure (reason : String)
  deriving DecidableEq, Repr

/-- The outcome of a scan that had to look at the first character of `rest`: if there is none and
reading fails there, the failure. -/
def Ending.lookAt {α : Type} (ending : Ending) (rest : List Char) (outcome : Except LexError α) :
    Except LexError α :=
  match ending, rest with
  | .failed reason, [] => .error (.readFailure reason)
  | _, _ => outcome

end Abacus
