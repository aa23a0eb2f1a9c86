import Abacus.Proofs.Session.Types
import Abacus.Proofs.Text.Utf8

/-!
Environments by their history. Main statement: whatever has been done in a session from its start,
its environment gives each name the value that the name was last set to, and lists exactly the names
that were set, in the order of their bytes.
-/
namespace Abacus

namespace Env

def last? (sets : List (String × Value)) (name : String) : Option Value :=
  ((sets.filter (·.1 = name)).getLast?).map (·.2)

theorem last?_cons (set : String × Value) (sets : List (String × Value)) (name : String) :
    last? (set :: sets) name =
      (last? sets name).or (if name = set.1 then some set.2 else none) := by
  by_cases same : name = set.1
  · subst same
    cases later : (sets.filter (·.1 = set.1)).getLast? <;> simp [last?, List.getLast?_cons, later]
  · simp [last?, same, Ne.symm same]

theorem last?_eq_none_iff (sets : List (String × Value)) (name : String) :
    last? sets name = none ↔ ∀ set ∈ sets, set.1 ≠ name := by
  simp [last?]

theorem get?_setAll (env : Env) (sets : List (String × Value)) (name : String) :
    (env.setAll sets).get? name = (last? sets name).or (env.get? name) := by
  induction sets generalizing env with
  | nil => rfl
  | cons set sets ih =>
      obtain ⟨target, value⟩ := set
      rw [setAll, ih, get?_set, last?_cons, Option.or_assoc]
      split <;> rfl

theorem get?_eq_none_iff (env : Env) (name : String) : env.get? name = none ↔ name ∉ env.names := by
  simp only [get?, names, List.lookup_eq_none_iff, List.mem_map, not_exists, not_and, bne_iff_ne]
  exact ⟨fun absent b member same => absent b member same.symm,
    fun absent b member same => absent b member same.symm⟩

theorem pairwise_names (env : Env) : env.names.Pairwise (· < ·) :=
  List.pairwise_map.mpr env.sorted

end Env

abbrev Trace := Env → List (String × Value)

namespace Computation

def traceThen (first : Computation) (trace : Trace) (next : Value → Trace) : Trace := fun env =>
  trace env ++
    match first env with
    | (.ok value, env) => next value env
    | (.error _, _) => []

def Leaves (compute : Computation) (trace : Trace) : Prop :=
  ∀ env, (compute env).2 = env.setAll (trace env)

theorem leaves_done (outcome : Except EvalError Value) : Leaves (done outcome) fun _ => [] := by
  intro env
  rfl

theorem Leaves.andThen {first : Computation} {next : Value → Computation} {trace : Trace}
    {traces : Value → Trace} (before : Leaves first trace)
    (after : ∀ value, Leaves (next value) (traces value)) :
    Leaves (first.andThen next) (first.traceThen trace traces) := by
  intro env
  have reached := before env
  simp only [Computation.andThen, traceThen, Env.setAll_append, ← reached]
  split
  · rename_i value env' ran
    rw [ran]
    exact after value env'
  · rename_i e env' ran
    rw [ran]
    rfl

theorem Leaves.andThen_done {first : Computation} {trace : Trace} (before : Leaves first trace)
    (outcome : Value → Except EvalError Value) :
    Leaves (first.andThen fun value => done (outcome value)) trace := by
  have same : first.traceThen trace (fun _ _ => []) = trace := by
    funext env
    rw [traceThen]
    split <;> exact List.append_nil _
  have joint := before.andThen fun value => leaves_done (outcome value)
  rwa [same] at joint

end Computation

namespace Term
open Abacus.Computation

def trace : Term → Trace
  | .node (.unary _) left right =>
      if left.isEmpty || !right.isEmpty then fun _ => [] else trace left
  | .node (.binary _) left right | .node .glue left right =>
      if left.isEmpty || right.isEmpty then fun _ => []
      else traceThen (eval left) (trace left) fun _ => trace right
  | .node .assign left right =>
      if left.isEmpty || right.isEmpty then fun _ => []
      else traceThen (eval right) (trace right) fun value _ =>
        (ident? left).toList.map (·, value)
  | _ => fun _ => []

theorem leaves_eval (t : Term) : Leaves t.eval t.trace := by
  induction t with
  | empty => exact leaves_done (.error .missingNode)
  | node label left right ih_left ih_right =>
      cases label with
      | number n => exact leaves_done (.ok (.int n))
      | float x => exact leaves_done (.ok (.float x))
      | unknown code => exact leaves_done (.error (.malformed (.unknown code)))
      | ident name =>
          intro env
          simp only [eval]
          split <;> rfl
      | unary op =>
          rw [eval_unary, trace]
          split
          · exact leaves_done _
          · exact ih_left.andThen_done _
      | binary op =>
          rw [eval_binary, trace]
          split
          · exact leaves_done _
          · exact ih_left.andThen fun x => ih_right.andThen_done _
      | assign =>
          rw [eval_assign, trace]
          split
          · exact leaves_done _
          · refine ih_right.andThen fun value => ?_
            cases ident? left with
            | none => exact leaves_done _
            | some name => exact fun env => rfl
      | glue =>
          rw [eval_glue, trace]
          split
          · exact leaves_done _
          · exact ih_left.andThen fun _ => ih_right

end Term

namespace Session

def traceTerm (session : Session) (term : Term) : List (String × Value) :=
  if (if session.verify then term.violations else []).isEmpty then term.trace session.env else []

theorem env_evaluate (session : Session) (term : Term) :
    (session.evaluate term).2.env = session.env.setAll (session.traceTerm term) := by
  have after := term.leaves_eval session.env
  simp only [evaluate, traceTerm]
  generalize (if session.verify then term.violations else []) = violations
  split
  · rw [← after]
    split <;> simp only [*]
  · rfl

def traceTerms (session : Session) : List Term → List (String × Value)
  | [] => []
  | .empty :: terms => session.traceTerms terms
  | term :: terms =>
      session.traceTerm term ++
        match session.evaluate term with
        | (.ok _, session) => session.traceTerms terms
        | (.error _, _) => []

theorem env_runTerms (session : Session) (terms : List Term) :
    (session.runTerms terms).session.env = session.env.setAll (session.traceTerms terms) := by
  induction terms generalizing session with
  | nil => rfl
  | cons term terms ih =>
      cases term with
      | empty => exact ih session
      | node label left right =>
          have reached := session.env_evaluate (.node label left right)
          simp only [runTerms, traceTerms, Env.setAll_append, ← reached]
          split
          · rename_i value next evaluated
            rw [evaluated]
            exact ih next
          · rename_i e next evaluated
            rw [evaluated]
            rfl

def traceAll : Session → List Source → List (String × Value)
  | _, [] => []
  | session, source :: sources =>
      session.traceTerms (Script.ofSource source).statements ++
        (session.run source).session.traceAll sources

theorem env_runAll (session : Session) (sources : List Source) :
    (session.runAll sources).2.env = session.env.setAll (session.traceAll sources) := by
  induction sources generalizing session with
  | nil => rfl
  | cons source sources ih =>
      have first : (session.run source).session.env =
          session.env.setAll (session.traceTerms (Script.ofSource source).statements) :=
        session.env_runTerms _
      rw [runAll, ih, traceAll, Env.setAll_append, first]

end Session

/-- What can be done to the environment of a session: to set a name, to evaluate a term, or to take
a step of the session. The shape check can be switched on and off in between. -/
inductive Session.Action where
  | set (name : String) (value : Value)
  | evaluate (term : Term)
  | take (step : Step)
  | verify (on : Bool)

namespace Session.Action

def after (session : Session) : Action → Session
  | .set name value => { session with env := session.env.set name value }
  | .evaluate term => { session with env := (term.eval session.env).2 }
  | .take step => step.after session
  | .verify on => { session with verify := on }

def sets (session : Session) : Action → List (String × Value)
  | .set name value => [(name, value)]
  | .evaluate term => term.trace session.env
  | .take step => session.traceAll step.sources
  | .verify _ => []

theorem env_after (session : Session) (action : Action) :
    (action.after session).env = session.env.setAll (action.sets session) := by
  cases action with
  | set name value => rfl
  | evaluate term => exact term.leaves_eval session.env
  | take step =>
      rw [after, (step.eq_runAll session).2]
      exact session.env_runAll step.sources
  | verify on => rfl

def history : Session → List Action → List (String × Value)
  | _, [] => []
  | session, action :: actions => action.sets session ++ history (action.after session) actions

theorem env_foldl_after (session : Session) (actions : List Action) :
    (actions.foldl after session).env = session.env.setAll (history session actions) := by
  induction actions generalizing session with
  | nil => rfl
  | cons action actions ih =>
      rw [List.foldl_cons, ih, history, Env.setAll_append, action.env_after session]

end Session.Action

/-- After any actions in a new session, by which names may be set directly, by evaluation and by
steps of the session, whether or not these fail, a name has the value that it was last set to, or
none if it was never set. The names are listed in the strict order of their bytes, and they are
those that have been set. -/
theorem Env.get?_eq_last_set (verify : Bool) (actions : List Session.Action) :
    let start : Session := ⟨.empty, verify⟩
    let env := (actions.foldl Session.Action.after start).env
    let sets := Session.Action.history start actions
    (∀ name, env.get? name = ((sets.filter (·.1 = name)).getLast?).map (·.2)) ∧
      (∀ name, env.get? name = none ↔ ∀ set ∈ sets, set.1 ≠ name) ∧
      (env.names.map Text.Utf8.encode).Pairwise (· < ·) ∧ env.names.Nodup ∧
      (∀ name, name ∈ env.names ↔ ∃ value, (name, value) ∈ sets) ∧
      env.size = env.names.length := by
  intro start env sets
  have reached : env = Env.empty.setAll sets := Session.Action.env_foldl_after start actions
  have value (name : String) : env.get? name = last? sets name := by
    rw [reached, get?_setAll, get?_empty, Option.or_none]
  refine ⟨value, fun name => by rw [value, last?_eq_none_iff], ?_, ?_, fun name => ?_, ?_⟩
  · exact List.pairwise_map.mpr (env.pairwise_names.imp (Text.Utf8.encode_lt_encode _ _))
  · refine env.pairwise_names.imp ?_
    rintro first second before rfl
    exact String.lt_irrefl first before
  · have bound : name ∈ env.names ↔ ¬ ∀ set ∈ sets, set.1 ≠ name := by
      rw [← last?_eq_none_iff, ← value, get?_eq_none_iff, Decidable.not_not]
    rw [bound]
    simp
  · exact (List.length_map _).symm

/-- An inner assignment comes first, one whose value fails is not made, and neither is what follows
an error. -/
example : Session.Action.history ⟨.empty, false⟩
    [.set "b" (.int 1), .take (.line "a=b=b+1;c=(d=b)/0;e=1;".toUTF8.toList),
      .evaluate (.assign (.leaf (.number 1)) (.assign (.leaf (.ident "a")) (.leaf (.ident "d"))))] =
    [("b", .int 1), ("b", .int 2), ("a", .int 2), ("d", .int 2), ("a", .int 2)] := by
  decide +kernel

end Abacus
