import Abacus.Eval
import Abacus.Proofs.Tree.WellFormed

/-!
Evaluation of well-formed terms. Main statement: it fails for what the term computes, never for a
node that lacks a child or has one too many.
-/
namespace Abacus

def EvalError.isInvalidNode : EvalError → Bool
  | .missingNode | .malformed _ => true
  | .undefined _ | .notAssignable | .divisionByZero _ | .shiftRange _ _ => false

def Legitimate {α : Type} (outcome : Except EvalError α) : Prop :=
  ∀ e, outcome = .error e → e.isInvalidNode = false

@[simp] theorem legitimate_ok {α : Type} (value : α) :
    Legitimate (.ok value : Except EvalError α) := by
  simp [Legitimate]

@[simp] theorem legitimate_error {α : Type} (e : EvalError) :
    Legitimate (.error e : Except EvalError α) ↔ e.isInvalidNode = false := by
  simp [Legitimate]

namespace BinaryOp
variable (op : BinaryOp)

theorem legitimate_applyInt (a b : Int32) : Legitimate (op.applyInt a b) := by
  fun_cases applyInt op a b <;> simp [EvalError.isInvalidNode]

theorem legitimate_applyTruncated (x y : Value) : Legitimate (op.applyTruncated x y) := by
  have whole := op.legitimate_applyInt x.toInt32 y.toInt32
  unfold applyTruncated
  split
  · simp
  · simp_all

theorem legitimate_apply (x y : Value) : Legitimate (op.apply x y) := by
  unfold apply
  split
  · rename_i a b
    have whole := op.legitimate_applyInt a b
    split
    · simp
    · simp_all
  · have truncated := op.legitimate_applyTruncated
    fun_cases applyFloat <;> simp [truncated]

end BinaryOp

namespace Term

theorem wellFormed_node_binary (label : Label) (left right : Term)
    (binary : label.operation.arity? = some .binary) :
    WellFormed (.node label left right) ↔
      (left.isEmpty = false ∧ right.isEmpty = false) ∧ left.WellFormed ∧ right.WellFormed := by
  simp only [WellFormed, Operation.flaws, binary]
  cases left.isEmpty <;> cases right.isEmpty <;> simp

theorem wellFormed_node_unary (op : UnaryOp) (left right : Term) :
    WellFormed (.node (.unary op) left right) ↔
      (left.isEmpty = false ∧ right.isEmpty = true) ∧ left.WellFormed ∧ right.WellFormed := by
  simp only [WellFormed, Label.operation, Operation.flaws, Operation.arity?]
  cases left.isEmpty <;> cases right.isEmpty <;> simp

theorem legitimate_eval (t : Term) (formed : t.WellFormed) (nonempty : t.isEmpty = false)
    (env : Env) : Legitimate (t.eval env).1 := by
  induction t generalizing env with
  | empty => simp [Tree.isEmpty] at nonempty
  | node label left right ih_left ih_right =>
      cases label with
      | number n => simp [eval]
      | float x => simp [eval]
      | ident name =>
          simp only [eval]
          split <;> simp [EvalError.isInvalidNode]
      | unknown code =>
          simp [WellFormed, Label.operation, Operation.flaws, Operation.arity?] at formed
      | unary op =>
          obtain ⟨⟨has_left, no_right⟩, left_formed, -⟩ := (wellFormed_node_unary op _ _).mp formed
          have first := ih_left left_formed has_left env
          simp only [eval, has_left, no_right, Bool.not_true, Bool.or_self, Bool.false_eq_true,
            ↓reduceIte]
          split
          · simp
          · simp_all
      | binary op =>
          obtain ⟨⟨has_left, has_right⟩, left_formed, right_formed⟩ :=
            (wellFormed_node_binary (.binary op) _ _ rfl).mp formed
          have first := ih_left left_formed has_left env
          simp only [eval, has_left, has_right, Bool.or_self, Bool.false_eq_true, ↓reduceIte]
          split
          · rename_i env' _
            have second := ih_right right_formed has_right env'
            split
            · exact op.legitimate_apply _ _
            · simp_all
          · simp_all
      | assign =>
          obtain ⟨⟨has_left, has_right⟩, -, right_formed⟩ :=
            (wellFormed_node_binary .assign _ _ rfl).mp formed
          have second := ih_right right_formed has_right env
          simp only [eval, has_left, has_right, Bool.or_self, Bool.false_eq_true, ↓reduceIte]
          split
          · split <;> simp [EvalError.isInvalidNode]
          · simp_all
      | glue =>
          obtain ⟨⟨has_left, has_right⟩, left_formed, right_formed⟩ :=
            (wellFormed_node_binary .glue _ _ rfl).mp formed
          have first := ih_left left_formed has_left env
          simp only [eval, has_left, has_right, Bool.or_self, Bool.false_eq_true, ↓reduceIte]
          split
          · exact ih_right right_formed has_right _
          · simp_all

end Term

end Abacus
