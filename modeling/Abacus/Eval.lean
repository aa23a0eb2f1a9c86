import Abacus.Env
import Abacus.Eval.Apply
import Abacus.Tree

/-!
Evaluation of terms in an environment.

The left child is evaluated before the right one, and the first error ends the evaluation. Bindings
made before the error stay.
-/
namespace Abacus.Term

def ident? : Term → Option String
  | .node (.ident name) _ _ => some name
  | _ => none

def eval : Term → Env → Except EvalError Value × Env
  | .empty, env => (.error .missingNode, env)
  | .node (.number n) _ _, env => (.ok (.int n), env)
  | .node (.float x) _ _, env => (.ok (.float x), env)
  | .node (.ident name) _ _, env =>
      match env.get? name with
      | some value => (.ok value, env)
      | none => (.error (.undefined name), env)
  | .node (.unary op) left right, env =>
      if left.isEmpty || !right.isEmpty then (.error (.malformed (.unary op)), env)
      else match eval left env with
        | (.ok x, env) => (.ok (op.apply x), env)
        | (.error e, env) => (.error e, env)
  | .node (.binary op) left right, env =>
      if left.isEmpty || right.isEmpty then (.error (.malformed (.binary op)), env)
      else match eval left env with
        | (.ok x, env) =>
            match eval right env with
            | (.ok y, env) => (op.apply x y, env)
            | (.error e, env) => (.error e, env)
        | (.error e, env) => (.error e, env)
  | .node .assign left right, env =>
      if left.isEmpty || right.isEmpty then (.error (.malformed .assign), env)
      else match eval right env with
        | (.ok value, env) =>
            match ident? left with
            | some name => (.ok value, env.set name value)
            | none => (.error .notAssignable, env)
        | (.error e, env) => (.error e, env)
  | .node .glue left right, env =>
      if left.isEmpty || right.isEmpty then (.error (.malformed .glue), env)
      else match eval left env with
        | (.ok _, env) => eval right env
        | (.error e, env) => (.error e, env)
  | .node (.unknown code) _ _, env => (.error (.malformed (.unknown code)), env)

end Abacus.Term
