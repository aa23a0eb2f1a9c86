import Abacus.Text.Utf8

/-!
Source text: the characters that are left to read, and what happens after the last of them.
-/
namespace Abacus

/-- What reading past the last character gives. -/
inductive Ending where
  | finished
  | failed (reason : String)
  deriving DecidableEq, Repr

structure Source where
  chars : List Char
  ending : Ending := .finished
  deriving DecidableEq, Repr

def Source.ofBytes (bytes : List UInt8) (ending : Ending := .finished) : Source :=
  ⟨Text.Utf8.decode bytes, ending⟩

end Abacus
