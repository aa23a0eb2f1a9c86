import Abacus.Number.Integer
import Abacus.Number.Layout
import Abacus.Tree.Printer

/-!
Values: 32-bit integers and doubles.
-/
namespace Abacus

inductive Value where
  | int (n : Int32)
  | float (x : Float)
  deriving DecidableEq, Repr

namespace Value

def isFloat : Value → Bool
  | .int _ => false
  | .float _ => true

def toInt32 : Value → Int32
  | .int n => n
  | .float x => Number.Binary64.toInt32 x

def toFloat : Value → Float
  | .int n => Float.ofInt n.toInt
  | .float x => x

def text : Value → String
  | .int n => String.ofList (Number.integerText n.toInt)
  | .float x => resultLayout.text x

end Value
end Abacus
