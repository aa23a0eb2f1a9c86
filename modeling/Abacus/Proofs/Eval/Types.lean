import Abacus.Proofs.Eval.Frame
import Abacus.Proofs.Tree.WellFormed

/-!
Integers and floats as types of values. Main statements: the type of a result depends on the types
in the environment and not on the values, and where there are only integers, no float comes up.
-/
namespace Abacus

theorem UnaryOp.isFloat_apply (op : UnaryOp) (x : Value) : (op.apply x).isFloat = x.isFloat := by
  cases op <;> cases x <;> rfl

namespace BinaryOp

theorem isFloat_of_applyFloat (op : BinaryOp) (x y z : Value) (result : op.applyFloat x y = .ok z) :
    z.isFloat = true := by
  have truncated : op.applyTruncated x y = .ok z → z.isFloat = true := by
    unfold applyTruncated
    split <;> rintro ⟨⟩
    rfl
  cases op with
  | mul | div | mod | add | sub =>
      cases result
      rfl
  | shl | shr | bitAnd | bitXor | bitOr => exact truncated result

theorem isFloat_of_apply (op : BinaryOp) (x y z : Value) (result : op.apply x y = .ok z) :
    z.isFloat = (x.isFloat || y.isFloat) := by
  match x, y with
  | .int a, .int b =>
      simp only [apply] at result
      split at result <;> cases result
      rfl
  | .int a, .float y => exact op.isFloat_of_applyFloat _ _ z result
  | .float x, .int b => exact op.isFloat_of_applyFloat _ _ z result
  | .float x, .float y => exact op.isFloat_of_applyFloat _ _ z result

end BinaryOp

namespace Env

def SameTypes (env other : Env) : Prop :=
  ∀ name, (env.get? name).map Value.isFloat = (other.get? name).map Value.isFloat

def Integral (env : Env) : Prop :=
  ∀ (name : String) (value : Value), env.get? name = some value → value.isFloat = false

theorem SameTypes.set {env other : Env} (same : SameTypes env other) (name : String) (x y : Value)
    (types : x.isFloat = y.isFloat) : SameTypes (env.set name x) (other.set name y) := by
  intro wanted
  rw [get?_set, get?_set]
  split
  · exact congrArg some types
  · exact same wanted

theorem Integral.set {env : Env} (integral : env.Integral) (name : String) (x : Value)
    (integer : x.isFloat = false) : (env.set name x).Integral := by
  intro wanted value
  rw [get?_set]
  split
  · rintro ⟨⟩
    exact integer
  · exact integral wanted value

end Env

namespace Computation

theorem exists_of_andThen {first : Computation} {next : Value → Computation} {env after : Env}
    {y : Value} (evaluated : first.andThen next env = (.ok y, after)) :
    ∃ x between, first env = (.ok x, between) ∧ next x between = (.ok y, after) := by
  unfold andThen at evaluated
  split at evaluated
  · rename_i x between first_eq
    exact ⟨x, between, first_eq, evaluated⟩
  · simp at evaluated

section Alike

/-- Where both computations succeed, in environments with the same types, their values have the same
type and they leave environments with the same types. -/
def Alike (first second : Computation) : Prop :=
  ∀ (env other after after' : Env) (x y : Value), env.SameTypes other →
    first env = (.ok x, after) → second other = (.ok y, after') →
      x.isFloat = y.isFloat ∧ after.SameTypes after'

variable {first second : Computation}

theorem alike_done (outcome outcome' : Except EvalError Value)
    (types : ∀ x y, outcome = .ok x → outcome' = .ok y → x.isFloat = y.isFloat) :
    Alike (done outcome) (done outcome') := by
  rintro env other _ _ x y same ⟨⟩ ⟨⟩
  exact ⟨types x y rfl rfl, same⟩

theorem alike_error (e e' : EvalError) : Alike (done (.error e)) (done (.error e')) :=
  alike_done _ _ fun _ _ failed => nomatch failed

theorem Alike.andThen {next next' : Value → Computation} (before : Alike first second)
    (later : ∀ x y, x.isFloat = y.isFloat → Alike (next x) (next' y)) :
    Alike (first.andThen next) (second.andThen next') := by
  intro env other after after' x y same evaluated evaluated'
  obtain ⟨value, between, first_eq, next_eq⟩ := exists_of_andThen evaluated
  obtain ⟨value', between', second_eq, next_eq'⟩ := exists_of_andThen evaluated'
  obtain ⟨types, kept⟩ := before env other between between' value value' same first_eq second_eq
  exact later value value' types between between' after after' x y kept next_eq next_eq'

end Alike

section KeepsIntegers

def KeepsIntegers (compute : Computation) : Prop :=
  ∀ env : Env, env.Integral →
    (compute env).2.Integral ∧ ∀ x, (compute env).1 = .ok x → x.isFloat = false

theorem keepsIntegers_done (outcome : Except EvalError Value)
    (integer : ∀ x, outcome = .ok x → x.isFloat = false) : KeepsIntegers (done outcome) :=
  fun _ integral => ⟨integral, integer⟩

theorem keepsIntegers_error (e : EvalError) : KeepsIntegers (done (.error e)) :=
  keepsIntegers_done _ fun _ failed => nomatch failed

theorem KeepsIntegers.andThen {first : Computation} {next : Value → Computation}
    (before : KeepsIntegers first) (later : ∀ x, x.isFloat = false → KeepsIntegers (next x)) :
    KeepsIntegers (first.andThen next) := by
  intro env integral
  obtain ⟨kept, integer⟩ := before env integral
  unfold Computation.andThen
  split
  · rename_i x between first_eq
    rw [first_eq] at kept integer
    exact later x (integer x rfl) between kept
  · rename_i e between first_eq
    rw [first_eq] at kept
    exact ⟨kept, fun _ failed => nomatch failed⟩

end KeepsIntegers

end Computation

def Label.isFloat : Label → Bool
  | .float _ => true
  | _ => false

def Term.FloatFree (t : Term) : Prop :=
  t.All (·.isFloat = false)

namespace Term
open Abacus.Computation

theorem alike_eval (t : Term) : Alike t.eval t.eval := by
  induction t with
  | empty => exact alike_error .missingNode .missingNode
  | node label left right ih_left ih_right =>
      cases label with
      | number n =>
          apply alike_done (.ok (.int n)) (.ok (.int n))
          rintro x y ⟨⟩ ⟨⟩
          rfl
      | float value =>
          apply alike_done (.ok (.float value)) (.ok (.float value))
          rintro x y ⟨⟩ ⟨⟩
          rfl
      | unknown code => exact alike_error _ _
      | ident name =>
          intro env other after after' x y same evaluated evaluated'
          have types := same name
          simp only [eval] at evaluated evaluated'
          split at evaluated <;> cases evaluated
          split at evaluated' <;> cases evaluated'
          simp_all
      | unary op =>
          rw [eval_unary]
          split
          · exact alike_error _ _
          · refine ih_left.andThen fun x y types => alike_done _ _ ?_
            rintro _ _ ⟨⟩ ⟨⟩
            rw [op.isFloat_apply, op.isFloat_apply, types]
      | binary op =>
          rw [eval_binary]
          split
          · exact alike_error _ _
          · refine ih_left.andThen fun x x' types =>
              ih_right.andThen fun y y' types' => alike_done _ _ fun z z' result result' => ?_
            rw [op.isFloat_of_apply x y z result, op.isFloat_of_apply x' y' z' result', types,
              types']
      | assign =>
          rw [eval_assign]
          split
          · exact alike_error _ _
          · refine ih_right.andThen fun x y types => ?_
            split
            · rename_i name _
              rintro env other _ _ _ _ same ⟨⟩ ⟨⟩
              exact ⟨types, same.set name x y types⟩
            · exact alike_error _ _
      | glue =>
          rw [eval_glue]
          split
          · exact alike_error _ _
          · exact ih_left.andThen fun _ _ _ => ih_right

theorem keepsIntegers_eval (t : Term) (free : t.FloatFree) :
    KeepsIntegers t.eval := by
  induction t with
  | empty => exact keepsIntegers_error .missingNode
  | node label left right ih_left ih_right =>
      obtain ⟨here, left_free, right_free⟩ := (Tree.all_node _ label left right).mp free
      have first := ih_left left_free
      have second := ih_right right_free
      cases label with
      | number n =>
          apply keepsIntegers_done (.ok (.int n))
          rintro x ⟨⟩
          rfl
      | float value => simp [Label.isFloat] at here
      | unknown code => exact keepsIntegers_error _
      | ident name =>
          intro env integral
          simp only [eval]
          split
          · rename_i value found
            refine ⟨integral, ?_⟩
            rintro _ ⟨⟩
            exact integral name value found
          · exact keepsIntegers_error (.undefined name) env integral
      | unary op =>
          rw [eval_unary]
          split
          · exact keepsIntegers_error _
          · refine first.andThen fun x integer => keepsIntegers_done _ ?_
            rintro _ ⟨⟩
            rw [op.isFloat_apply, integer]
      | binary op =>
          rw [eval_binary]
          split
          · exact keepsIntegers_error _
          · refine first.andThen fun x integer => second.andThen fun y integer' =>
              keepsIntegers_done _ fun z result => ?_
            rw [op.isFloat_of_apply x y z result, integer, integer', Bool.or_self]
      | assign =>
          rw [eval_assign]
          split
          · exact keepsIntegers_error _
          · refine second.andThen fun x integer => ?_
            split
            · rename_i name _
              intro env integral
              refine ⟨integral.set name x integer, ?_⟩
              rintro _ ⟨⟩
              exact integer
            · exact keepsIntegers_error _
      | glue =>
          rw [eval_glue]
          split
          · exact keepsIntegers_error _
          · exact first.andThen fun _ _ => second

end Term
end Abacus
