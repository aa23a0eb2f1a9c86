import Abacus.Proofs.Eval.WellFormed
import Abacus.Proofs.Tree.Sharing

/-!
The check of a graph's shape next to its evaluation. Main statement: what passes the check is
evaluated without meeting an invalid node, and what has a value passes the check, unless a node is
shared or a leaf has children, which evaluation does not look at.
-/
namespace Abacus

namespace Term

theorem eval_unary_eq_ok (op : UnaryOp) (left right : Term) (env : Env) (value : Value)
    (evaluated : (eval (.node (.unary op) left right) env).1 = .ok value) :
    (left.isEmpty = false ∧ right.isEmpty = true) ∧ ∃ x, (left.eval env).1 = .ok x := by
  simp only [eval] at evaluated
  split at evaluated
  · simp at evaluated
  · rename_i children
    refine ⟨by simpa using children, ?_⟩
    split at evaluated
    · rename_i x _ first
      exact ⟨x, by rw [first]⟩
    · simp at evaluated

theorem eval_binary_eq_ok (op : BinaryOp) (left right : Term) (env : Env) (value : Value)
    (evaluated : (eval (.node (.binary op) left right) env).1 = .ok value) :
    (left.isEmpty = false ∧ right.isEmpty = false) ∧ (∃ x, (left.eval env).1 = .ok x) ∧
      ∃ y, (right.eval (left.eval env).2).1 = .ok y := by
  simp only [eval] at evaluated
  split at evaluated
  · simp at evaluated
  · rename_i children
    refine ⟨by simpa using children, ?_⟩
    split at evaluated
    · rename_i x _ first
      refine ⟨⟨x, by rw [first]⟩, ?_⟩
      split at evaluated
      · rename_i y _ second
        exact ⟨y, by rw [first, second]⟩
      · simp at evaluated
    · simp at evaluated

theorem eval_glue_eq_ok (left right : Term) (env : Env) (value : Value)
    (evaluated : (eval (.node .glue left right) env).1 = .ok value) :
    (left.isEmpty = false ∧ right.isEmpty = false) ∧ (∃ x, (left.eval env).1 = .ok x) ∧
      (right.eval (left.eval env).2).1 = .ok value := by
  simp only [eval] at evaluated
  split at evaluated
  · simp at evaluated
  · rename_i children
    refine ⟨by simpa using children, ?_⟩
    split at evaluated
    · rename_i x _ first
      exact ⟨⟨x, by rw [first]⟩, by rw [first, evaluated]⟩
    · simp at evaluated

theorem eval_assign_eq_ok (left right : Term) (env : Env) (value : Value)
    (evaluated : (eval (.node .assign left right) env).1 = .ok value) :
    (left.isEmpty = false ∧ right.isEmpty = false) ∧ (∃ name, left.ident? = some name) ∧
      (right.eval env).1 = .ok value := by
  simp only [eval] at evaluated
  split at evaluated
  · simp at evaluated
  · rename_i children
    refine ⟨by simpa using children, ?_⟩
    split at evaluated
    · rename_i x _ second
      split at evaluated
      · rename_i name is_name
        exact ⟨⟨name, is_name⟩, by rw [second, ← evaluated]⟩
      · simp at evaluated
    · simp at evaluated

end Term

namespace Graph

def BareRoot : Graph → Prop
  | .empty => True
  | .node (_, label) left right =>
      label.operation.isLeaf = true → left.isEmpty = true ∧ right.isEmpty = true

def BareLeaves (g : Graph) : Prop :=
  ∀ path, BareRoot (g.walk path)

@[simp] theorem bareLeaves_empty : BareLeaves .empty := by
  simp [BareLeaves, BareRoot]

@[simp] theorem bareLeaves_node (root : Nat × Label) (left right : Graph) :
    BareLeaves (.node root left right) ↔
      BareRoot (.node root left right) ∧ left.BareLeaves ∧ right.BareLeaves :=
  Tree.forall_walk_node BareRoot root left right

theorem wellFormed_of_isLeaf (id : Nat) (label : Label) (left right : Graph)
    (leaf : label.operation.isLeaf = true) (bare : BareRoot (.node (id, label) left right)) :
    Term.WellFormed (term (.node (id, label) left right)) := by
  obtain ⟨no_left, no_right⟩ := bare leaf
  have flaws : label.operation.flaws true true = [] := by
    have arity : label.operation.arity? = some .leaf := by simpa [Operation.isLeaf] using leaf
    simp [Operation.flaws, arity]
  cases left with
  | node => simp [Tree.isEmpty] at no_left
  | empty =>
      cases right with
      | node => simp [Tree.isEmpty] at no_right
      | empty => exact ⟨flaws, trivial, trivial⟩

theorem wellFormed_of_ident? (g : Graph) (name : String) (is_name : g.term.ident? = some name)
    (bare : g.BareLeaves) : g.term.WellFormed := by
  cases g with
  | empty => trivial
  | node root left right =>
      obtain ⟨id, label⟩ := root
      cases label with
      | ident _ =>
          exact wellFormed_of_isLeaf id _ left right rfl ((bareLeaves_node _ left right).mp bare).1
      | _ => simp [term, Tree.map, Term.ident?] at is_name

/-- Evaluation to a value has looked at the children of every node but those of leaves. -/
theorem wellFormed_of_eval (g : Graph) (bare : g.BareLeaves) (env : Env) (value : Value)
    (evaluated : (g.term.eval env).1 = .ok value) : g.term.WellFormed := by
  induction g generalizing env value with
  | empty => trivial
  | node root left right ih_left ih_right =>
      obtain ⟨id, label⟩ := root
      obtain ⟨leaf, left_bare, right_bare⟩ := (bareLeaves_node (id, label) left right).mp bare
      cases label with
      | number _ | float _ | ident _ => exact wellFormed_of_isLeaf id _ left right rfl leaf
      | unknown code => simp [term, Tree.map, Term.eval] at evaluated
      | unary op =>
          obtain ⟨children, x, first⟩ := Term.eval_unary_eq_ok op _ _ env value evaluated
          obtain rfl : right = .empty := by
            cases right with
            | empty => rfl
            | node => simp [Tree.isEmpty, Tree.map] at children
          exact (Term.wellFormed_node_unary op _ _).mpr
            ⟨children, ih_left left_bare env x first, trivial⟩
      | binary op =>
          obtain ⟨children, ⟨x, first⟩, y, second⟩ :=
            Term.eval_binary_eq_ok op _ _ env value evaluated
          exact (Term.wellFormed_node_binary _ _ _ rfl).mpr
            ⟨children, ih_left left_bare env x first, ih_right right_bare _ y second⟩
      | assign =>
          obtain ⟨children, ⟨name, is_name⟩, second⟩ :=
            Term.eval_assign_eq_ok _ _ env value evaluated
          exact (Term.wellFormed_node_binary _ _ _ rfl).mpr
            ⟨children, wellFormed_of_ident? left name is_name left_bare,
              ih_right right_bare env value second⟩
      | glue =>
          obtain ⟨children, ⟨x, first⟩, second⟩ := Term.eval_glue_eq_ok _ _ env value evaluated
          exact (Term.wellFormed_node_binary _ _ _ rfl).mpr
            ⟨children, ih_left left_bare env x first, ih_right right_bare _ value second⟩

/-- A graph that passes the check of its shape is evaluated without meeting an invalid node. A graph
that has a value passes it, if no node is at the end of two paths and no leaf has a child. -/
theorem violations_agree_eval (g : Graph) (env : Env) :
    (g.isEmpty = false → g.violations = [] →
      ∀ e, (g.term.eval env).1 = .error e → e.isInvalidNode = false) ∧
    (∀ value, (g.term.eval env).1 = .ok value → g.Unshared → g.BareLeaves → g.violations = []) := by
  constructor
  · intro nonempty none
    have formed := ((violations_eq_nil_iff g).mp none).1
    exact g.term.legitimate_eval formed (by simpa [term] using nonempty) env
  · intro value evaluated unshared bare
    exact (violations_eq_nil_iff g).mpr ⟨wellFormed_of_eval g bare env value evaluated, unshared⟩

/-- The name on the left of an assignment is not evaluated, and the node that divides is evaluated
in one environment and lacks a name in another. -/
theorem violations_agree_eval_assign :
    let g : Graph := .node (0, .assign) (.node (1, .ident "x") .empty .empty)
      (.node (2, .binary .div) (.node (3, .ident "y") .empty .empty)
        (.node (4, .unary .negate) (.node (5, .number 2) .empty .empty) .empty))
    (g.term.eval (Env.empty.set "y" (.int 8))).1 = .ok (.int (-4)) ∧ g.violations = [] ∧
      (g.term.eval .empty).1 = .error (.undefined "y") ∧
      (EvalError.undefined "y").isInvalidNode = false := by
  intro g
  have unshared : g.Unshared := (nodup_ids_iff g).mp (by decide)
  have bare : g.BareLeaves := by
    simp [g, BareRoot, Tree.isEmpty, Label.operation, Operation.isLeaf, Operation.arity?]
  have value : (g.term.eval (Env.empty.set "y" (.int 8))).1 = .ok (.int (-4)) := by rfl
  have none := (violations_agree_eval g _).2 _ value unshared bare
  have fails : (g.term.eval .empty).1 = .error (.undefined "y") := rfl
  exact ⟨value, none, fails, (violations_agree_eval g .empty).1 rfl none _ fails⟩

end Graph
end Abacus
