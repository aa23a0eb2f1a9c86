/-!
Double-precision numbers as exact arithmetic on natural numbers.

A finite double is a whole number of units, one unit being the least positive double `2 ^ -1074`.
Its word is what its bits spell as a natural number, the sign bit left out.
-/
namespace Abacus.Number.Binary64

def unitPlaces : Nat := 1074

def one : Nat := Nat.pow 2 unitPlaces

def leadingBit : Nat := Nat.pow 2 52

def signBit : Nat := Nat.pow 2 63

/-- The word of an infinity. Words of finite numbers lie below it, those of NaN above. -/
def infinity : Nat := 2047 * leadingBit

def nearestQuotient (num den : Nat) : Nat :=
  let quotient := num / den
  let twice := 2 * (num % den)
  if twice < den then quotient
  else if den < twice then quotient + 1
  else quotient + quotient % 2

/-- The word nearest to `num / den` units, a tie to the even one. Too large a value gives a word
that is not below `infinity`. -/
def round (num den : Nat) : Nat :=
  let shift := (num / den).log2 - 52
  shift * leadingBit + nearestQuotient num (den * Nat.pow 2 shift)

def units (word : Nat) : Nat :=
  let exponent := word / leadingBit
  if exponent = 0 then word
  else (leadingBit + word % leadingBit) * Nat.pow 2 (exponent - 1)

inductive View where
  | nan
  | infinite (negative : Bool)
  | finite (negative : Bool) (units : Nat)
  deriving DecidableEq, Repr

def negative (x : Float) : Bool :=
  decide (signBit ≤ x.toBits.toNat)

def word (x : Float) : Nat :=
  x.toBits.toNat % signBit

def isFinite (x : Float) : Bool :=
  decide (word x < infinity)

def view (x : Float) : View :=
  if word x < infinity then .finite (negative x) (units (word x))
  else if word x = infinity then .infinite (negative x)
  else .nan

/-- The double with the given sign and word; words past `infinity` become infinite. -/
def ofWord (negative : Bool) (word : Nat) : Float :=
  Float.ofBits (UInt64.ofNat ((if negative then signBit else 0) + min word infinity))

/-- The whole number that is left when the fraction is dropped, clamped to 32 bits. A NaN gives
zero. -/
def toInt32 (x : Float) : Int32 :=
  match view x with
  | .nan => 0
  | .infinite true => Int32.minValue
  | .infinite false => Int32.maxValue
  | .finite true n => Int32.ofInt (max (-(n / one : Nat)) (-2147483648))
  | .finite false n => Int32.ofInt (min (n / one : Nat) 2147483647)

def scale (x : Float) (e : Int) : Float :=
  match view x with
  | .finite sign n =>
      match e with
      | .ofNat k => ofWord sign (round (n * Nat.pow 2 k) 1)
      | .negSucc k => ofWord sign (round n (Nat.pow 2 (k + 1)))
  | _ => x

def notANumber : Float :=
  Float.ofBits 0x7ff8000000000000

/-- The exact remainder of `x / y` with the quotient cut toward zero; its sign is that of `x`. -/
def remainder (x y : Float) : Float :=
  match view x, view y with
  | .finite _ _, .finite _ 0 => notANumber
  | .finite sign n, .finite _ d => ofWord sign (round (n % d) 1)
  | .finite _ _, .infinite _ => x
  | _, _ => notANumber

end Abacus.Number.Binary64
