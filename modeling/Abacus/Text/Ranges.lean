/-!
Sets of code points given by closed ranges.
-/
namespace Abacus.Text

abbrev Ranges := List (Nat × Nat)

def Ranges.contains (ranges : Ranges) (n : Nat) : Bool :=
  ranges.any fun range => decide (range.1 ≤ n) && decide (n ≤ range.2)

end Abacus.Text
