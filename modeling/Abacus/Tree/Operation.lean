/-!
The operations that label the nodes of a tree, with their codes and names.
-/
namespace Abacus

inductive UnaryOp where
  | negate | bitNot
  deriving DecidableEq, Repr

inductive BinaryOp where
  | mul | div | mod | add | sub | shl | shr | bitAnd | bitXor | bitOr
  deriving DecidableEq, Repr

inductive Operation where
  | number | float | ident
  | unary (op : UnaryOp)
  | binary (op : BinaryOp)
  | assign | glue
  | unknown (code : UInt8)
  deriving DecidableEq, Repr

namespace Operation

def all : List Operation :=
  [.number, .float, .ident, .unary .negate, .unary .bitNot,
    .binary .mul, .binary .div, .binary .mod, .binary .add, .binary .sub,
    .binary .shl, .binary .shr, .binary .bitAnd, .binary .bitXor, .binary .bitOr,
    .assign, .glue]

def ofCode (code : UInt8) : Operation :=
  all[code.toNat]?.getD (.unknown code)

def text : Operation → String
  | .number => "Number"
  | .float => "Float"
  | .ident => "Ident"
  | .unary .negate => "Negate"
  | .unary .bitNot => "BitNot"
  | .binary .mul => "Mul"
  | .binary .div => "Div"
  | .binary .mod => "Mod"
  | .binary .add => "Add"
  | .binary .sub => "Sub"
  | .binary .shl => "Shl"
  | .binary .shr => "Shr"
  | .binary .bitAnd => "BitAnd"
  | .binary .bitXor => "BitXor"
  | .binary .bitOr => "BitOr"
  | .assign => "Assign"
  | .glue => "Glue"
  | .unknown code => "Operation(" ++ toString code.toNat ++ ")"

def ofText? (text : String) : Option Operation :=
  all.find? (·.text = text)

inductive Arity where
  | leaf | unary | binary
  deriving DecidableEq, Repr

def arity? : Operation → Option Arity
  | .number | .float | .ident => some .leaf
  | .unary _ => some .unary
  | .binary _ | .assign | .glue => some .binary
  | .unknown _ => none

def isLeaf (op : Operation) : Bool := op.arity? = some .leaf

def isUnary (op : Operation) : Bool := op.arity? = some .unary

def isBinary (op : Operation) : Bool := op.arity? = some .binary

end Operation
end Abacus
