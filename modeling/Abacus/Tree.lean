import Abacus.Tree.Operation

/-!
Binary trees, and the terms and graphs built from them.
-/
namespace Abacus

inductive Tree (α : Type) where
  | empty
  | node (label : α) (left right : Tree α)
  deriving DecidableEq, Repr, Inhabited

namespace Tree

def isEmpty {α : Type} : Tree α → Bool
  | .empty => true
  | .node _ _ _ => false

def map {α β : Type} (f : α → β) : Tree α → Tree β
  | .empty => .empty
  | .node label left right => .node (f label) (left.map f) (right.map f)

/-- The labels in depth-first order, a node before its children and the left child first. Below a
label that `descend` refuses nothing is visited. -/
def preorder {α : Type} (descend : α → Bool) : Tree α → List α
  | .empty => []
  | .node label left right =>
      label :: if descend label then left.preorder descend ++ right.preorder descend else []

end Tree

inductive Label where
  | number (value : Int32)
  | float (value : Float)
  | ident (name : String)
  | unary (op : UnaryOp)
  | binary (op : BinaryOp)
  | assign
  | glue
  | unknown (code : UInt8)
  deriving DecidableEq, Repr

def Label.operation : Label → Operation
  | .number _ => .number
  | .float _ => .float
  | .ident _ => .ident
  | .unary op => .unary op
  | .binary op => .binary op
  | .assign => .assign
  | .glue => .glue
  | .unknown code => .unknown code

/-- The tree of an expression or statement; empty for a statement without effect. -/
abbrev Term := Tree Label

namespace Term

def leaf (label : Label) : Term :=
  .node label .empty .empty

def unary (op : UnaryOp) (x : Term) : Term :=
  .node (.unary op) x .empty

def binary (op : BinaryOp) (x y : Term) : Term :=
  .node (.binary op) x y

def assign (x y : Term) : Term :=
  .node .assign x y

def sequence : Term → Term → Term
  | .empty, y => y
  | x, .empty => x
  | x, y => .node .glue x y

end Term

/-- A term whose nodes have an identity: nodes of the same number are one node that is reached
along several paths. -/
abbrev Graph := Tree (Nat × Label)

namespace Graph

def term (g : Graph) : Term :=
  g.map Prod.snd

def number : Term → Nat → Graph × Nat
  | .empty, first => (.empty, first)
  | .node label left right, first =>
      let (left, second) := number left (first + 1)
      let (right, third) := number right second
      (.node (first, label) left right, third)

def ofTerm (t : Term) : Graph :=
  (number t 0).1

end Graph
end Abacus
