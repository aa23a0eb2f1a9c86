import Abacus.Env.Lemmas
import Abacus.Eval

/-!
What evaluation reads and what it sets. Main statements: it sets no name that does not stand left of
an assignment, it depends on no name that the term does not hold, and two terms that set none of
each other's names can be evaluated in either order.
-/
namespace Abacus

namespace Env

theorem get?_set (env : Env) (name other : String) (value : Value) :
    (env.set name value).get? other = if other = name then some value else env.get? other := by
  split
  · rename_i same
    rw [same, get?_set_self]
  · rename_i different
    exact env.get?_set_of_ne name other value different

def setAll (env : Env) : List (String × Value) → Env
  | [] => env
  | (name, value) :: updates => (env.set name value).setAll updates

theorem setAll_append (env : Env) (first second : List (String × Value)) :
    env.setAll (first ++ second) = (env.setAll first).setAll second := by
  induction first generalizing env with
  | nil => rfl
  | cons update first ih => exact ih _

theorem get?_setAll_congr (env other : Env) (updates : List (String × Value)) (name : String)
    (same : env.get? name = other.get? name) :
    (env.setAll updates).get? name = (other.setAll updates).get? name := by
  induction updates generalizing env other with
  | nil => exact same
  | cons update updates ih =>
      apply ih
      rw [get?_set, get?_set, same]

theorem get?_setAll_of_ne (env : Env) (updates : List (String × Value)) (name : String)
    (different : ∀ update ∈ updates, name ≠ update.1) :
    (env.setAll updates).get? name = env.get? name := by
  induction updates generalizing env with
  | nil => rfl
  | cons update updates ih =>
      rw [setAll, ih _ fun u member => different u (.tail update member),
        get?_set_of_ne env _ _ _ (different update List.mem_cons_self)]

theorem get?_setAll_ne_none (env : Env) (updates : List (String × Value)) (name : String)
    (bound : env.get? name ≠ none) : (env.setAll updates).get? name ≠ none := by
  induction updates generalizing env with
  | nil => exact bound
  | cons update updates ih =>
      apply ih
      rw [get?_set]
      split
      · simp
      · exact bound

theorem setAll_comm (env : Env) (first second : List (String × Value))
    (apart : ∀ a ∈ first, ∀ b ∈ second, a.1 ≠ b.1) :
    (env.setAll first).setAll second = (env.setAll second).setAll first := by
  apply ext_get?
  intro name
  by_cases set : ∃ a ∈ first, name = a.1
  · obtain ⟨a, member, rfl⟩ := set
    rw [get?_setAll_of_ne _ second _ (apart a member)]
    exact get?_setAll_congr _ _ first _ (get?_setAll_of_ne env second _ (apart a member)).symm
  · have untouched : ∀ a ∈ first, name ≠ a.1 := fun a member same => set ⟨a, member, same⟩
    rw [get?_setAll_of_ne (env.setAll second) first _ untouched]
    exact get?_setAll_congr _ _ second _ (get?_setAll_of_ne env first _ untouched)

end Env

abbrev Computation := Env → Except EvalError Value × Env

namespace Computation

def done (outcome : Except EvalError Value) : Computation :=
  fun env => (outcome, env)

def andThen (first : Computation) (next : Value → Computation) : Computation := fun env =>
  match first env with
  | (.ok value, env) => next value env
  | (.error e, env) => (.error e, env)

/-- A computation depends on no other names than `reads` and sets no others than `writes`: where
environments agree on the former, it has one outcome and makes the same updates. -/
def Confined (reads writes : List String) (compute : Computation) : Prop :=
  ∀ env other : Env, (∀ name ∈ reads, env.get? name = other.get? name) →
    ∃ (outcome : Except EvalError Value) (updates : List (String × Value)),
      (∀ update ∈ updates, update.1 ∈ writes) ∧
      compute env = (outcome, env.setAll updates) ∧ compute other = (outcome, other.setAll updates)

variable {reads writes : List String}

theorem confined_done (outcome : Except EvalError Value) :
    Confined reads writes (done outcome) := by
  intro env other agree
  exact ⟨outcome, [], by simp, rfl, rfl⟩

theorem confined_set (name : String) (value : Value) (member : name ∈ writes) :
    Confined reads writes fun env => (.ok value, env.set name value) := by
  intro env other agree
  exact ⟨.ok value, [(name, value)], by simpa using member, rfl, rfl⟩

theorem Confined.mono {reads' writes' : List String} {compute : Computation}
    (confined : Confined reads writes compute) (more_reads : reads ⊆ reads')
    (more_writes : writes ⊆ writes') : Confined reads' writes' compute := by
  intro env other agree
  obtain ⟨outcome, updates, targets, first, second⟩ :=
    confined env other fun name member => agree name (more_reads member)
  exact ⟨outcome, updates, fun update member => more_writes (targets update member), first, second⟩

theorem Confined.andThen {first : Computation} {next : Value → Computation}
    (before : Confined reads writes first) (after : ∀ value, Confined reads writes (next value)) :
    Confined reads writes (first.andThen next) := by
  intro env other agree
  obtain ⟨outcome, updates, targets, left, right⟩ := before env other agree
  cases outcome with
  | error e =>
      exact ⟨.error e, updates, targets, by rw [Computation.andThen, left],
        by rw [Computation.andThen, right]⟩
  | ok value =>
      -- after the same updates the environments still agree on what is read
      obtain ⟨last, later, later_targets, left', right'⟩ :=
        after value (env.setAll updates) (other.setAll updates) fun name member =>
          Env.get?_setAll_congr env other updates name (agree name member)
      refine ⟨last, updates ++ later, ?_, ?_, ?_⟩
      · intro update member
        rcases List.mem_append.mp member with member | member
        · exact targets update member
        · exact later_targets update member
      · rw [Computation.andThen, left, Env.setAll_append]
        exact left'
      · rw [Computation.andThen, right, Env.setAll_append]
        exact right'

end Computation

namespace Term
open Abacus.Computation

section Equations
variable (left right : Term)

theorem eval_unary (op : UnaryOp) :
    eval (.node (.unary op) left right) =
      if left.isEmpty || !right.isEmpty then done (.error (.malformed (.unary op)))
      else andThen left.eval fun x => done (.ok (op.apply x)) := by
  funext env
  simp only [eval]
  split <;> rfl

theorem eval_binary (op : BinaryOp) :
    eval (.node (.binary op) left right) =
      if left.isEmpty || right.isEmpty then done (.error (.malformed (.binary op)))
      else andThen left.eval fun x => andThen right.eval fun y => done (op.apply x y) := by
  funext env
  simp only [eval]
  split <;> rfl

theorem eval_assign :
    eval (.node .assign left right) =
      if left.isEmpty || right.isEmpty then done (.error (.malformed .assign))
      else andThen right.eval fun value =>
        match left.ident? with
        | some name => fun env => (.ok value, env.set name value)
        | none => done (.error .notAssignable) := by
  funext env
  simp only [eval]
  split
  · rfl
  · simp only [andThen]
    cases left.ident? <;> rfl

theorem eval_glue :
    eval (.node .glue left right) =
      if left.isEmpty || right.isEmpty then done (.error (.malformed .glue))
      else andThen left.eval fun _ => right.eval := by
  funext env
  simp only [eval]
  split <;> rfl

end Equations

def idents : Term → List String
  | .empty => []
  | .node (.ident name) left right => name :: (idents left ++ idents right)
  | .node _ left right => idents left ++ idents right

def targets : Term → List String
  | .empty => []
  | .node .assign left right => (ident? left).toList ++ (targets left ++ targets right)
  | .node _ left right => targets left ++ targets right

theorem mem_idents_of_ident? (t : Term) (name : String) (is_name : t.ident? = some name) :
    name ∈ t.idents := by
  unfold ident? at is_name
  split at is_name
  · cases is_name
    exact List.mem_cons_self
  · simp at is_name

theorem idents_left_subset (label : Label) (left right : Term) :
    left.idents ⊆ idents (.node label left right) := by
  intro name member
  cases label <;> simp [idents, member]

theorem idents_right_subset (label : Label) (left right : Term) :
    right.idents ⊆ idents (.node label left right) := by
  intro name member
  cases label <;> simp [idents, member]

theorem targets_left_subset (label : Label) (left right : Term) :
    left.targets ⊆ targets (.node label left right) := by
  intro name member
  cases label <;> simp [targets, member]

theorem targets_right_subset (label : Label) (left right : Term) :
    right.targets ⊆ targets (.node label left right) := by
  intro name member
  cases label <;> simp [targets, member]

theorem targets_subset_idents (t : Term) : t.targets ⊆ t.idents := by
  induction t with
  | empty => exact List.Subset.refl _
  | node label left right ih_left ih_right =>
      have below : targets left ++ targets right ⊆ idents (.node label left right) :=
        List.append_subset.mpr ⟨List.Subset.trans ih_left (idents_left_subset label left right),
          List.Subset.trans ih_right (idents_right_subset label left right)⟩
      cases label with
      | assign =>
          refine List.append_subset.mpr ⟨?_, below⟩
          intro name member
          exact idents_left_subset _ _ _ (mem_idents_of_ident? left name (by simpa using member))
      | _ => exact below

theorem confined_eval (t : Term) : Confined t.idents t.targets t.eval := by
  induction t with
  | empty => exact confined_done (.error .missingNode)
  | node label left right ih_left ih_right =>
      have first : Confined (idents (.node label left right)) (targets (.node label left right))
          (eval left) :=
        ih_left.mono (idents_left_subset label left right) (targets_left_subset label left right)
      have second : Confined (idents (.node label left right)) (targets (.node label left right))
          (eval right) :=
        ih_right.mono (idents_right_subset label left right) (targets_right_subset label left right)
      cases label with
      | number n => exact confined_done (.ok (.int n))
      | float x => exact confined_done (.ok (.float x))
      | unknown code => exact confined_done (.error (.malformed (.unknown code)))
      | ident name =>
          intro env other agree
          have same := agree name List.mem_cons_self
          simp only [eval, same]
          split
          · rename_i value _
            exact confined_done (.ok value) env other agree
          · exact confined_done (.error (.undefined name)) env other agree
      | unary op =>
          rw [eval_unary]
          split
          · exact confined_done _
          · exact first.andThen fun x => confined_done _
      | binary op =>
          rw [eval_binary]
          split
          · exact confined_done _
          · exact first.andThen fun x => second.andThen fun y => confined_done _
      | assign =>
          rw [eval_assign]
          split
          · exact confined_done _
          · refine second.andThen fun value => ?_
            split
            · rename_i name is_name
              exact confined_set name value (by simp [targets, is_name])
            · exact confined_done _
      | glue =>
          rw [eval_glue]
          split
          · exact confined_done _
          · exact first.andThen fun _ => second

theorem exists_updates_of_eval (t : Term) (env : Env) :
    ∃ updates : List (String × Value), (∀ update ∈ updates, update.1 ∈ t.targets) ∧
      (t.eval env).2 = env.setAll updates := by
  obtain ⟨outcome, updates, confined, evaluated, -⟩ := t.confined_eval env env fun _ _ => rfl
  exact ⟨updates, confined, by rw [evaluated]⟩

theorem get?_eval_of_not_mem (t : Term) (env : Env) (name : String) (untouched : name ∉ t.targets) :
    (t.eval env).2.get? name = env.get? name := by
  obtain ⟨updates, confined, after⟩ := t.exists_updates_of_eval env
  rw [after]
  apply env.get?_setAll_of_ne updates name
  rintro update member rfl
  exact untouched (confined update member)

/-- Evaluation, whether or not it succeeds, leaves every name bound that is bound, and changes no
name that does not stand left of an assignment. In two environments that agree on the names of the
term it has the same outcome, and they agree on these names afterwards. -/
theorem eval_frame (t : Term) (env : Env) :
    (∀ name, env.get? name ≠ none → (t.eval env).2.get? name ≠ none) ∧
    (∀ name ∉ t.targets, (t.eval env).2.get? name = env.get? name) ∧
    ∀ other : Env, (∀ name ∈ t.idents, env.get? name = other.get? name) →
      (t.eval env).1 = (t.eval other).1 ∧
        ∀ name ∈ t.idents, (t.eval env).2.get? name = (t.eval other).2.get? name := by
  refine ⟨?_, t.get?_eval_of_not_mem env, ?_⟩
  · intro name bound
    obtain ⟨updates, -, after⟩ := t.exists_updates_of_eval env
    rw [after]
    exact env.get?_setAll_ne_none updates name bound
  · intro other agree
    obtain ⟨outcome, updates, -, first, second⟩ := t.confined_eval env other agree
    rw [first, second]
    exact ⟨rfl, fun name member => env.get?_setAll_congr other updates name (agree name member)⟩

/-- The inner assignment is made before the evaluation fails. The environments differ on a name that
the term does not hold. -/
theorem eval_frame_undefined :
    let t := assign (leaf (.ident "x"))
      (binary .add (assign (leaf (.ident "y")) (leaf (.number 2))) (leaf (.ident "q")))
    let env := Env.empty.set "x" (.int 1)
    let other := env.set "w" (.float 0.5)
    (t.eval env).1 = .error (.undefined "q") ∧ (t.eval other).1 = .error (.undefined "q") ∧
      (t.eval other).2.get? "w" = some (.float 0.5) ∧ (t.eval other).2.get? "x" ≠ none ∧
      (t.eval env).2.get? "y" = some (.int 2) ∧ (t.eval other).2.get? "y" = some (.int 2) := by
  intro t env other
  have fails : (t.eval env).1 = .error (.undefined "q") := rfl
  have inner : (t.eval env).2.get? "y" = some (.int 2) := by decide
  obtain ⟨-, -, dependence⟩ := t.eval_frame env
  obtain ⟨same, after⟩ := dependence other (by decide)
  obtain ⟨kept, untouched, -⟩ := t.eval_frame other
  exact ⟨fails, same ▸ fails, untouched "w" (by decide), kept "x" (by decide), inner,
    after "y" (by decide) ▸ inner⟩

/-- Two terms of which neither sets a name that the other holds have the same outcomes and leave the
same environment, whichever is evaluated first and whether or not they succeed. -/
theorem eval_comm (first second : Term) (env : Env)
    (first_apart : ∀ name ∈ first.targets, name ∉ second.idents)
    (second_apart : ∀ name ∈ second.targets, name ∉ first.idents) :
    (first.eval (second.eval env).2).1 = (first.eval env).1 ∧
      (second.eval (first.eval env).2).1 = (second.eval env).1 ∧
      (second.eval (first.eval env).2).2 = (first.eval (second.eval env).2).2 := by
  -- each term finds its own names as they were, so it makes the same updates before and after
  obtain ⟨outcome, updates, confined, alone, behind⟩ :=
    first.confined_eval env (second.eval env).2 fun name member =>
      (second.get?_eval_of_not_mem env name fun set => second_apart name set member).symm
  obtain ⟨outcome', others, others_confined, alone', behind'⟩ :=
    second.confined_eval env (first.eval env).2 fun name member =>
      (first.get?_eval_of_not_mem env name fun set => first_apart name set member).symm
  rw [behind, behind', alone, alone']
  refine ⟨rfl, rfl, env.setAll_comm updates others ?_⟩
  intro a member b other_member same
  exact first_apart a.1 (confined a member)
    (same ▸ second.targets_subset_idents (others_confined b other_member))

/-- Both terms fail, the first behind an assignment that it has made. -/
theorem eval_comm_failures :
    let first : Term := .node .glue (assign (leaf (.ident "x")) (leaf (.ident "w")))
      (assign (leaf (.number 1)) (leaf (.ident "x")))
    let second := binary .shl (assign (leaf (.ident "y")) (leaf (.number 40)))
      (unary .negate (leaf (.ident "w")))
    let env := Env.empty.set "w" (.int 3)
    (∀ name ∈ first.targets, name ∉ second.idents) ∧
      (∀ name ∈ second.targets, name ∉ first.idents) ∧
      (first.eval (second.eval env).2).1 = .error .notAssignable ∧
      (second.eval (first.eval env).2).1 = .error (.shiftRange .shl (-3)) ∧
      (second.eval (first.eval env).2).2 = (first.eval (second.eval env).2).2 ∧
      (second.eval (first.eval env).2).2.names = ["w", "x", "y"] := by
  intro first second env
  have first_apart : ∀ name ∈ first.targets, name ∉ second.idents := by decide
  have second_apart : ∀ name ∈ second.targets, name ∉ first.idents := by decide
  obtain ⟨outcome, outcome', same⟩ := eval_comm first second env first_apart second_apart
  exact ⟨first_apart, second_apart, outcome.trans rfl, outcome'.trans rfl, same, by decide⟩

end Term
end Abacus
