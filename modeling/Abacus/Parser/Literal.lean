import Abacus.Number.Decimal
import Abacus.Number.Integer
import Abacus.Text.Quoted

/-!
The values of number literals, read from their text.
-/
namespace Abacus

inductive NumeralError where
  | invalid (numeral : String)
  | integerRange (numeral : String)
  | floatRange (numeral : String)
  deriving DecidableEq, Repr

namespace NumeralError

def message : NumeralError → String
  | .invalid numeral => text "ParseInt" numeral "invalid syntax"
  | .integerRange numeral => text "ParseInt" numeral "value out of range"
  | .floatRange numeral => text "ParseFloat" numeral "value out of range"
where
  text (reader numeral reason : String) : String :=
    "strconv." ++ reader ++ ": parsing " ++ String.ofList (Text.quoted '"' numeral.toList) ++
      ": " ++ reason

end NumeralError

namespace Literal
open Number Text

def radix (base : Nat) (digits : List Char) : Except NumeralError Int32 :=
  if digits.isEmpty || !digits.all fun c => (digit? base c).isSome then
    .error (.invalid (String.ofList digits))
  else if integerLimit < positional base digits then .error (.integerRange (String.ofList digits))
  else .ok (Int32.ofNat (positional base digits))

def scientific (numeral : List Char) : Except NumeralError Int32 :=
  match (Decimal.ofNumeral numeral).finiteWord? with
  | none => .error (.floatRange (String.ofList numeral))
  | some word =>
      let units := Binary64.units word
      if integerLimit * Binary64.one < units then .error (.integerRange (String.ofList numeral))
      else .ok (Int32.ofNat (units / Binary64.one))

/-- The value of an integer literal: after `0x` hexadecimal, with an exponent scientific, after
another zero octal, else decimal. -/
def integer (numeral : List Char) : Except NumeralError Int32 :=
  match numeral with
  | '0' :: 'x' :: digits => radix 16 digits
  | _ =>
      if numeral.any fun c => c = 'e' ∨ c = 'E' then scientific numeral
      else match numeral with
        | '0' :: d :: digits => radix 8 (d :: digits)
        | _ => radix 10 numeral

def float (numeral : List Char) : Except NumeralError Float :=
  match (Decimal.ofNumeral numeral).finiteWord? with
  | none => .error (.floatRange (String.ofList numeral))
  | some word => .ok (Binary64.ofWord false word)

end Literal
end Abacus
