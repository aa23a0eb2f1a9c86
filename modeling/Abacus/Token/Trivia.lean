import Abacus.Text.Blank

/-!
What stands between tokens: blanks, line comments and block comments.
-/
namespace Abacus.Trivia
open Text

inductive Mode where
  | blanks
  | line
  | block
  deriving DecidableEq, Repr

/-- The text after the trivia it starts with, or nothing if a block comment never ends.

In mode `line` and `block` the text starts within a comment of that kind. -/
def skipFrom : Mode → List Char → Option (List Char)
  | .blanks, [] => some []
  | .blanks, '/' :: '/' :: text => skipFrom .line text
  | .blanks, '/' :: '*' :: text => skipFrom .block text
  | .blanks, c :: text => if isBlank c then skipFrom .blanks text else some (c :: text)
  | .line, [] => some []
  | .line, c :: text => if c = '\n' then skipFrom .blanks text else skipFrom .line text
  | .block, [] => none
  | .block, '*' :: '/' :: text => skipFrom .blanks text
  | .block, _ :: text => skipFrom .block text

def skip (text : List Char) : Option (List Char) :=
  skipFrom .blanks text

theorem skipFrom_length_le (mode : Mode) (text rest : List Char)
    (skipped : skipFrom mode text = some rest) : rest.length ≤ text.length := by
  fun_induction skipFrom mode text <;> grind

theorem skip_length_le (text rest : List Char) (skipped : skip text = some rest) :
    rest.length ≤ text.length :=
  skipFrom_length_le .blanks text rest skipped

end Abacus.Trivia
