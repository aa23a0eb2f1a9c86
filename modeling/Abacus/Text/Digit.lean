/-!
Digits and the positional value of a numeral.
-/
namespace Abacus.Text

def isDigit (c : Char) : Bool :=
  '0' ≤ c && c ≤ '9'

def digitValue? (c : Char) : Option Nat :=
  if isDigit c then some (c.toNat - '0'.toNat)
  else if 'a' ≤ c ∧ c ≤ 'z' then some (c.toNat - 'a'.toNat + 10)
  else if 'A' ≤ c ∧ c ≤ 'Z' then some (c.toNat - 'A'.toNat + 10)
  else none

def digit? (base : Nat) (c : Char) : Option Nat :=
  (digitValue? c).filter (· < base)

def positional (base : Nat) (numeral : List Char) : Nat :=
  numeral.foldl (fun n c => n * base + (digitValue? c).getD 0) 0

end Abacus.Text
