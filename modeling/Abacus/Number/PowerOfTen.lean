import Abacus.Number.Binary64

/-!
Powers of ten in double precision by repeated squaring.

The base is kept as a fraction in `[1/2, 1)` times a power of two, so that no square overflows; the
power of two is applied at the end, with one rounding.
-/
namespace Abacus.Number.PowerOfTen

/-- A value `fraction * 2 ^ exponent`. -/
structure Scaled where
  fraction : Float
  exponent : Int

def Scaled.mul (a b : Scaled) : Scaled :=
  ⟨a.fraction * b.fraction, a.exponent + b.exponent⟩

def Scaled.square (a : Scaled) : Scaled :=
  let f := a.fraction * a.fraction
  if f < 0.5 then ⟨f + f, 2 * a.exponent - 1⟩ else ⟨f, 2 * a.exponent⟩

def ten : Scaled := ⟨0.625, 4⟩

/-- `total * base ^ n`. Once the base has left the range of doubles for good, only its power of two
is taken along. -/
def power (total base : Scaled) (n : Nat) : Scaled :=
  if n = 0 then total
  else if 4096 < base.exponent.natAbs then ⟨total.fraction, total.exponent + base.exponent⟩
  else power (if n % 2 = 1 then total.mul base else total) base.square (n / 2)

def value (e : Int) : Float :=
  if e = 1 then 10
  else
    let p := power ⟨1, 0⟩ ten e.natAbs
    if e < 0 then Binary64.scale (1 / p.fraction) (-p.exponent)
    else Binary64.scale p.fraction p.exponent

end Abacus.Number.PowerOfTen
