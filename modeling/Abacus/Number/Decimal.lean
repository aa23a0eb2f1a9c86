import Abacus.Number.Binary64
import Abacus.Text.Digit

/-!
Decimals `digits * 10 ^ exponent`, how a numeral spells one, and the double nearest to one.
-/
namespace Abacus.Number

structure Decimal where
  digits : Nat
  exponent : Int
  deriving DecidableEq, Repr

namespace Decimal
open Text

/-- The size of an exponent: its first five digits from the first that is not zero. The digits after
these are passed over, so that no exponent is larger than 99999. -/
def exponentSize (numeral : List Char) : Nat :=
  positional 10 ((numeral.dropWhile (· = '0')).take 5)

def exponentPart : List Char → Int
  | [] => 0
  | _ :: '-' :: numeral => -(exponentSize numeral : Int)
  | _ :: '+' :: numeral => exponentSize numeral
  | _ :: numeral => exponentSize numeral

def ofNumeral (numeral : List Char) : Decimal :=
  let whole := numeral.takeWhile isDigit
  match numeral.dropWhile isDigit with
  | '.' :: rest =>
      let fraction := rest.takeWhile isDigit
      ⟨positional 10 (whole ++ fraction),
        exponentPart (rest.dropWhile isDigit) - fraction.length⟩
  | rest => ⟨positional 10 whole, exponentPart rest⟩

/-- The word of the nearest double, `infinity` or more if there is none.

Exponents that put the value out of range decide at once: with a digit in it the value is at least
`10 ^ exponent`, and it is below `10 ^ (exponent + digits.log2 + 1)`. -/
def word (d : Decimal) : Nat :=
  if d.digits = 0 then 0
  else if 310 < d.exponent then Binary64.infinity
  else if d.exponent + d.digits.log2 + 1 < -330 then 0
  else match d.exponent with
    | .ofNat k => Binary64.round (d.digits * Nat.pow 10 k * Binary64.one) 1
    | .negSucc k => Binary64.round (d.digits * Binary64.one) (Nat.pow 10 (k + 1))

def finiteWord? (d : Decimal) : Option Nat :=
  if d.word < Binary64.infinity then some d.word else none

end Decimal
end Abacus.Number
