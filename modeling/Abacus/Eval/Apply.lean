import Abacus.Eval.EvalError
import Abacus.Value

/-!
Operations on values.

Two integers combine with 32-bit wraparound. As soon as one side is a float, arithmetic is done on
floats, while bitwise operations and shifts cut both sides to integers and give a float again.
-/
namespace Abacus
open Number

def UnaryOp.apply : UnaryOp → Value → Value
  | .negate, .int n => .int (-n)
  | .negate, .float x => .float (-x)
  | .bitNot, .int n => .int (~~~n)
  | .bitNot, .float x => .float (Float.ofInt (~~~Binary64.toInt32 x).toInt)

namespace BinaryOp

/-- Division cuts the quotient toward zero. A shift count lies between 0 and 31. -/
def applyInt (op : BinaryOp) (a b : Int32) : Except EvalError Int32 :=
  match op with
  | .mul => .ok (a * b)
  | .div => if b = 0 then .error (.divisionByZero op) else .ok (a / b)
  | .mod => if b = 0 then .error (.divisionByZero op) else .ok (a % b)
  | .add => .ok (a + b)
  | .sub => .ok (a - b)
  | .shl => if b < 0 ∨ 31 < b then .error (.shiftRange op b) else .ok (a <<< b)
  | .shr => if b < 0 ∨ 31 < b then .error (.shiftRange op b) else .ok (a >>> b)
  | .bitAnd => .ok (a &&& b)
  | .bitXor => .ok (a ^^^ b)
  | .bitOr => .ok (a ||| b)

def applyTruncated (op : BinaryOp) (x y : Value) : Except EvalError Value :=
  match op.applyInt x.toInt32 y.toInt32 with
  | .ok n => .ok (.float (Float.ofInt n.toInt))
  | .error e => .error e

def applyFloat (op : BinaryOp) (x y : Value) : Except EvalError Value :=
  match op with
  | .mul => .ok (.float (x.toFloat * y.toFloat))
  | .div => .ok (.float (x.toFloat / y.toFloat))
  | .mod => .ok (.float (Binary64.remainder x.toFloat y.toFloat))
  | .add => .ok (.float (x.toFloat + y.toFloat))
  | .sub => .ok (.float (x.toFloat - y.toFloat))
  | .shl | .shr | .bitAnd | .bitXor | .bitOr => op.applyTruncated x y

def apply (op : BinaryOp) : Value → Value → Except EvalError Value
  | .int a, .int b =>
      match op.applyInt a b with
      | .ok n => .ok (.int n)
      | .error e => .error e
  | x, y => op.applyFloat x y

end BinaryOp
end Abacus
