import Abacus.Tree.Operation

/-!
Why a term has no value.
-/
namespace Abacus

inductive EvalError where
  | undefined (name : String)
  | notAssignable
  | divisionByZero (op : BinaryOp)
  | shiftRange (op : BinaryOp) (count : Int32)
  | missingNode
  | malformed (op : Operation)
  deriving DecidableEq, Repr

end Abacus
