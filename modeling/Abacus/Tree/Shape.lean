import Std.Data.HashSet
import Abacus.Tree

/-!
The shape of a graph: leaves have no children, unary operations have a left child only, binary
operations have both, and no node is reached twice.
-/
namespace Abacus

inductive Flaw where
  | shared
  | leafWithChildren
  | missingOperand
  | extraRight
  | missingLeft
  | missingRight
  | unknownOperation
  deriving DecidableEq, Repr

def Flaw.text : Flaw → String
  | .shared => "node reachable more than once"
  | .leafWithChildren => "leaf has children"
  | .missingOperand => "missing operand"
  | .extraRight => "unary operation has a right child"
  | .missingLeft => "missing left operand"
  | .missingRight => "missing right operand"
  | .unknownOperation => "unknown operation"

structure Violation where
  operation : Operation
  flaw : Flaw
  deriving DecidableEq, Repr

namespace Violation

def text (v : Violation) : String :=
  v.operation.text ++ ": " ++ v.flaw.text

def report (violations : List Violation) : String :=
  "AST verification failed:\n  " ++ "\n  ".intercalate (violations.map text)

end Violation

def Operation.flaws (op : Operation) (noLeft noRight : Bool) : List Flaw :=
  match op.arity? with
  | some .leaf => if noLeft && noRight then [] else [.leafWithChildren]
  | some .unary =>
      (if noLeft then [.missingOperand] else []) ++ (if noRight then [] else [.extraRight])
  | some .binary =>
      (if noLeft then [.missingLeft] else []) ++ (if noRight then [.missingRight] else [])
  | none => [.unknownOperation]

namespace Graph

/-- The violations found in depth-first order, when the nodes in `seen` have been met before, and
the nodes met by then. A node met again is not entered again. -/
def violationsFrom (seen : Std.HashSet Nat) : Graph → List Violation × Std.HashSet Nat
  | .empty => ([], seen)
  | .node (id, label) left right =>
      let op := label.operation
      if seen.contains id then ([⟨op, .shared⟩], seen)
      else
        let own := (op.flaws left.isEmpty right.isEmpty).map (⟨op, ·⟩)
        let (below, seen) := violationsFrom (seen.insert id) left
        let (beyond, seen) := violationsFrom seen right
        (own ++ below ++ beyond, seen)

def violations (g : Graph) : List Violation :=
  (violationsFrom ∅ g).1

end Graph

def Term.violations (t : Term) : List Violation :=
  (Graph.ofTerm t).violations

end Abacus
