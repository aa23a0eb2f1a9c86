import Abacus.Number.Decimal

/-!
The fewest decimal digits that read back as a given double, and of those the nearest to it.
-/
namespace Abacus.Number.Decimal

/-- Scaled by this power of ten, a double has at least eighteen digits before the point. -/
def places : Nat := 341

def digitCount (n : Nat) : Nat :=
  (Nat.toDigits 10 n).length

def exact (n : Nat) : Decimal :=
  ⟨n * Nat.pow 5 Binary64.unitPlaces, -Binary64.unitPlaces⟩

def neighbours (n count : Nat) : Decimal × Decimal :=
  let scaled := n * Nat.pow 10 places / Binary64.one
  let dropped := digitCount scaled - count
  let exponent := (dropped : Int) - places
  let digits := scaled / Nat.pow 10 dropped
  (⟨digits, exponent⟩, ⟨digits + 1, exponent⟩)

def compareMiddle (n : Nat) (low : Decimal) : Ordering :=
  let value := 2 * n * Nat.pow 10 places
  let place := Nat.pow 10 (low.exponent + places).toNat
  let middle := (2 * low.digits + 1) * place * Binary64.one
  compare value middle

def nearer (low high : Decimal) : Ordering → Decimal
  | .lt => low
  | .gt => high
  -- at equal distance the even one
  | .eq => if low.digits % 2 = 0 then low else high

/-- Of the two neighbours with `count` digits the one that reads back as `n` units; if both do, the
nearer one. -/
def pick? (n count : Nat) : Option Decimal :=
  let word := Binary64.round n 1
  let (low, high) := neighbours n count
  if low.word = word then
    if high.word = word then some (nearer low high (compareMiddle n low)) else some low
  else if high.word = word then some high
  else none

def shortest (n : Nat) : Decimal :=
  ((List.range' 1 17).findSome? (pick? n)).getD (exact n)

end Abacus.Number.Decimal
