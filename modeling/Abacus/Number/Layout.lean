import Abacus.Number.Shortest

/-!
The text of a double: its shortest digits, written out in full or with an exponent.
-/
namespace Abacus.Number

/-- The choices a text format makes. With `d.ddd * 10 ^ x` for the value, `x` from `plainFrom` on
and below `plainBelow` is written without an exponent. A negative exponent is padded with zeros to
`negativeWidth` digits, any other to two. -/
structure Layout where
  plainFrom : Int
  plainBelow : Int
  negativeWidth : Nat
  deriving DecidableEq, Repr

namespace Layout

def zeros (count : Nat) : List Char :=
  List.replicate count '0'

def stripZeros (digits : List Char) : List Char :=
  (digits.reverse.dropWhile (· = '0')).reverse

def padded (width n : Nat) : List Char :=
  let digits := Nat.toDigits 10 n
  zeros (width - digits.length) ++ digits

/-- The value `0.ddd * 10 ^ point` written out in full. -/
def plain (digits : List Char) (point : Int) : List Char :=
  if point ≤ 0 then '0' :: '.' :: (zeros (-point).toNat ++ digits)
  else if (digits.length : Int) ≤ point then digits ++ zeros (point.toNat - digits.length)
  else digits.take point.toNat ++ '.' :: digits.drop point.toNat

def mantissa : List Char → List Char
  | [] => []
  | [d] => [d]
  | d :: ds => d :: '.' :: ds

def exponent (layout : Layout) (x : Int) : List Char :=
  if x < 0 then '-' :: padded layout.negativeWidth x.natAbs else '+' :: padded 2 x.natAbs

def exponential (layout : Layout) (digits : List Char) (x : Int) : List Char :=
  mantissa digits ++ 'e' :: layout.exponent x

def significand (decimal : Decimal) : List Char :=
  stripZeros (Nat.toDigits 10 decimal.digits)

def leading (decimal : Decimal) : Int :=
  decimal.exponent + (Nat.toDigits 10 decimal.digits).length - 1

def decimalText (layout : Layout) (decimal : Decimal) : List Char :=
  let digits := significand decimal
  let x := leading decimal
  if layout.plainFrom ≤ x ∧ x < layout.plainBelow then plain digits (x + 1)
  else layout.exponential digits x

def magnitude (layout : Layout) (units : Nat) : List Char :=
  if units = 0 then ['0'] else layout.decimalText (.shortest units)

def text (layout : Layout) (x : Float) : String :=
  match Binary64.view x with
  | .nan => "NaN"
  | .infinite true => "-Inf"
  | .infinite false => "+Inf"
  | .finite negative units =>
      let sign := if negative then ['-'] else []
      String.ofList (sign ++ layout.magnitude units)

end Layout
end Abacus.Number
