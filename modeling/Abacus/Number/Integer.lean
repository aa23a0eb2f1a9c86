/-!
The range of integers and their text.
-/
namespace Abacus.Number

def integerLimit : Nat := 2147483647

def integerText (n : Int) : List Char :=
  match n with
  | .ofNat k => Nat.toDigits 10 k
  | .negSucc k => '-' :: Nat.toDigits 10 (k + 1)

end Abacus.Number
