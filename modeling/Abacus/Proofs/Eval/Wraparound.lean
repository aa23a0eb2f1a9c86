import Abacus.Proofs.Eval.Frame
import Abacus.Proofs.Eval.WellFormed
import Abacus.Proofs.Number.TwosComplement
import Abacus.Proofs.Tree.Sharing

/-!
Evaluation of integer terms next to arithmetic on the integers. Main statement: every node has the
residue of what its operation makes of its operands, and where only sums, products and the like are
taken, it is enough to reduce the exact result.
-/
namespace Abacus
open Number

def UnaryOp.exact : UnaryOp → Int → Int
  | .negate, a => -a
  | .bitNot, a => a.lnot

/-- What an operation makes of two integers of any size. Quotients are cut toward zero, with the
remainders that go with them; a shift to the right cuts toward negative infinity. -/
def BinaryOp.exact (op : BinaryOp) (a b : Int) : Except EvalError Int :=
  match op with
  | .mul => .ok (a * b)
  | .div => if b = 0 then .error (.divisionByZero op) else .ok (a.tdiv b)
  | .mod => if b = 0 then .error (.divisionByZero op) else .ok (a.tmod b)
  | .add => .ok (a + b)
  | .sub => .ok (a - b)
  | .shl =>
      if 0 ≤ b ∧ b ≤ 31 then .ok (a * 2 ^ b.toNat) else .error (.shiftRange op (Int32.ofInt b))
  | .shr =>
      if 0 ≤ b ∧ b ≤ 31 then .ok (a.fdiv (2 ^ b.toNat)) else .error (.shiftRange op (Int32.ofInt b))
  | .bitAnd => .ok (a.land b)
  | .bitXor => .ok (a.xor b)
  | .bitOr => .ok (a.lor b)

namespace Term

/-- The value of a term over the integers, the left operand first, with `reduce` applied at every
node. Only numbers, names and operations on them are given a value. -/
def compute (reduce : Int → Int) (values : String → Int) : Term → Except EvalError Int
  | .empty => .error .missingNode
  | .node (.number n) _ _ => .ok (reduce n.toInt)
  | .node (.ident name) _ _ => .ok (reduce (values name))
  | .node (.unary op) operand _ => do
      let a ← compute reduce values operand
      return reduce (op.exact a)
  | .node (.binary op) left right => do
      let a ← compute reduce values left
      let b ← compute reduce values right
      (op.exact a b).map reduce
  | .node label _ _ => .error (.malformed label.operation)

end Term

section Operations

theorem UnaryOp.apply_int (op : UnaryOp) (a : Int32) :
    ∃ c : Int32, op.apply (.int a) = .int c ∧ c.toInt = residue (op.exact a.toInt) := by
  cases op with
  | negate => exact ⟨-a, rfl, a.toInt_neg⟩
  | bitNot => exact ⟨~~~a, rfl, by rw [UnaryOp.exact, lnot_eq]; exact a.toInt_not⟩

namespace BinaryOp

theorem apply_int (op : BinaryOp) (a b : Int32) :
    op.apply (.int a) (.int b) = (op.applyInt a b).map .int := by
  simp only [apply]
  cases op.applyInt a b <;> rfl

theorem eq_zero_iff (b : Int32) : b = 0 ↔ b.toInt = 0 := by
  rw [← Int32.toInt_inj, Int32.toInt_zero]

theorem outside_iff (b : Int32) : (b < 0 ∨ 31 < b) ↔ ¬ (0 ≤ b.toInt ∧ b.toInt ≤ 31) := by
  rw [Int32.lt_iff_toInt_lt, Int32.lt_iff_toInt_lt, Int32.toInt_zero,
    show (31 : Int32).toInt = 31 from rfl]
  omega

/-- An operation on 32-bit integers gives the residue of what it makes of the integers, and fails
where that fails. -/
theorem applyInt_eq_exact (op : BinaryOp) (a b : Int32) :
    (op.applyInt a b).map Int32.toInt = (op.exact a.toInt b.toInt).map residue := by
  cases op with
  | mul => exact congrArg Except.ok (a.toInt_mul b)
  | add => exact congrArg Except.ok (a.toInt_add b)
  | sub => exact congrArg Except.ok (a.toInt_sub b)
  | bitAnd => exact congrArg Except.ok (by rw [← toInt_and, residue_toInt])
  | bitXor => exact congrArg Except.ok (by rw [← toInt_xor, residue_toInt])
  | bitOr => exact congrArg Except.ok (by rw [← toInt_or, residue_toInt])
  | div =>
      simp only [applyInt, exact, eq_zero_iff]
      split
      · rfl
      · exact congrArg Except.ok (a.toInt_div b)
  | mod =>
      simp only [applyInt, exact, eq_zero_iff]
      split
      · rfl
      · exact congrArg Except.ok (by rw [← Int32.toInt_mod, residue_toInt])
  | shl =>
      simp only [applyInt, exact, outside_iff, ite_not]
      split
      · rename_i range
        exact congrArg Except.ok (toInt_shiftLeft a b range.1 range.2)
      · exact congrArg Except.error (by rw [Int32.ofInt_toInt])
  | shr =>
      simp only [applyInt, exact, outside_iff, ite_not]
      split
      · rename_i range
        exact congrArg Except.ok (by rw [← toInt_shiftRight a b range.1 range.2, residue_toInt])
      · exact congrArg Except.error (by rw [Int32.ofInt_toInt])

end BinaryOp
end Operations

def Label.isIntegral : Label → Bool
  | .float _ | .assign | .glue => false
  | .number _ | .ident _ | .unary _ | .binary _ | .unknown _ => true

namespace Term
open Abacus.Computation

theorem eval_of_integral (t : Term) (env : Env) (values : String → Int32) (formed : t.WellFormed)
    (nonempty : t.isEmpty = false) (integral : t.All (·.isIntegral = true))
    (bound : ∀ name ∈ t.idents, env.get? name = some (.int (values name))) :
    ∃ outcome : Except EvalError Int32, t.eval env = (outcome.map .int, env) ∧
      t.compute residue (fun name => (values name).toInt) = outcome.map Int32.toInt := by
  induction t with
  | empty => simp [Tree.isEmpty] at nonempty
  | node label left right ih_left ih_right =>
      obtain ⟨own, left_integral, right_integral⟩ := (Tree.all_node _ label left right).mp integral
      have left_bound := fun name member => bound name (idents_left_subset label left right member)
      have right_bound := fun name member =>
        bound name (idents_right_subset label left right member)
      cases label with
      | float | assign | glue => simp [Label.isIntegral] at own
      | unknown code =>
          simp [WellFormed, Label.operation, Operation.flaws, Operation.arity?] at formed
      | number n => exact ⟨.ok n, rfl, congrArg Except.ok (residue_toInt n)⟩
      | ident name =>
          refine ⟨.ok (values name), ?_, congrArg Except.ok (residue_toInt (values name))⟩
          simp only [eval, bound name List.mem_cons_self]
          rfl
      | unary op =>
          obtain ⟨⟨has_left, no_right⟩, left_formed, -⟩ := (wellFormed_node_unary op _ _).mp formed
          obtain ⟨first, evaluated, computed⟩ :=
            ih_left left_formed has_left left_integral left_bound
          simp only [eval_unary, has_left, no_right, Bool.not_true, Bool.or_self,
            Bool.false_eq_true, ↓reduceIte, andThen, evaluated, compute, computed]
          cases first with
          | error e => exact ⟨.error e, rfl, rfl⟩
          | ok a =>
              obtain ⟨c, applied, value⟩ := op.apply_int a
              refine ⟨.ok c, ?_, congrArg Except.ok value.symm⟩
              exact congrArg (fun value => (Except.ok value, env)) applied
      | binary op =>
          obtain ⟨⟨has_left, has_right⟩, left_formed, right_formed⟩ :=
            (wellFormed_node_binary (.binary op) _ _ rfl).mp formed
          obtain ⟨first, evaluated, computed⟩ :=
            ih_left left_formed has_left left_integral left_bound
          obtain ⟨second, evaluated', computed'⟩ :=
            ih_right right_formed has_right right_integral right_bound
          simp only [eval_binary, has_left, has_right, Bool.or_self, Bool.false_eq_true,
            ↓reduceIte, andThen, evaluated, compute, computed, computed']
          cases first with
          | error e => exact ⟨.error e, rfl, rfl⟩
          | ok a =>
              simp only [Except.map, evaluated']
              cases second with
              | error e => exact ⟨.error e, rfl, rfl⟩
              | ok b =>
                  refine ⟨op.applyInt a b, ?_, ?_⟩
                  · exact congrArg (·, env) (op.apply_int a b)
                  · exact (op.applyInt_eq_exact a b).symm

/-- Terms that make up a polynomial in their names: numbers and names under signs, complements,
sums, differences, products and shifts to the left by a number that is given. -/
inductive IsPolynomial : Term → Prop where
  | number (n : Int32) : IsPolynomial (.leaf (.number n))
  | ident (name : String) : IsPolynomial (.leaf (.ident name))
  | unary (op : UnaryOp) {x : Term} (operand : IsPolynomial x) : IsPolynomial (.unary op x)
  | binary (op : BinaryOp) (ring : op ∈ [.add, .sub, .mul]) {x y : Term} (left : IsPolynomial x)
      (right : IsPolynomial y) : IsPolynomial (.binary op x y)
  | shiftLeft {x : Term} (operand : IsPolynomial x) (count : Int32)
      (range : 0 ≤ count.toInt ∧ count.toInt ≤ 31) :
      IsPolynomial (.binary .shl x (.leaf (.number count)))

theorem residue_exact_unary (op : UnaryOp) (a : Int) :
    residue (op.exact (residue a)) = residue (op.exact a) := by
  cases op with
  | negate => exact Int.bmod_neg_bmod
  | bitNot =>
      have swapped (n : Int) : n.lnot = -1 - n := by rw [lnot_eq]; omega
      simp only [UnaryOp.exact, swapped, residue, Int.sub_bmod_bmod]

theorem residue_exact_binary (op : BinaryOp) (ring : op ∈ [.add, .sub, .mul]) (a b : Int) :
    ∃ exact reduced : Int, op.exact a b = .ok exact ∧
      op.exact (residue a) (residue b) = .ok reduced ∧ residue reduced = residue exact := by
  simp only [List.mem_cons, List.not_mem_nil, or_false] at ring
  rcases ring with rfl | rfl | rfl
  · exact ⟨_, _, rfl, rfl, by simp only [residue, Int.bmod_add_bmod, Int.add_bmod_bmod]⟩
  · exact ⟨_, _, rfl, rfl, by simp only [residue, Int.bmod_sub_bmod, Int.sub_bmod_bmod]⟩
  · exact ⟨_, _, rfl, rfl, by simp only [residue, Int.bmod_mul_bmod, Int.mul_bmod_bmod]⟩

/-- The residue of a polynomial need not be taken before its value is known. -/
theorem compute_of_isPolynomial (t : Term) (values : String → Int) (polynomial : t.IsPolynomial) :
    ∃ n : Int, t.compute id values = .ok n ∧ t.compute residue values = .ok (residue n) := by
  induction polynomial with
  | number n => exact ⟨n.toInt, rfl, rfl⟩
  | ident name => exact ⟨values name, rfl, rfl⟩
  | unary op operand ih =>
      obtain ⟨n, exact, reduced⟩ := ih
      refine ⟨op.exact n, ?_, ?_⟩
      · simp only [Term.unary, compute, exact]
        rfl
      · simp only [Term.unary, compute, reduced]
        exact congrArg Except.ok (residue_exact_unary op n)
  | binary op ring left right ih_left ih_right =>
      obtain ⟨m, left_exact, left_reduced⟩ := ih_left
      obtain ⟨n, right_exact, right_reduced⟩ := ih_right
      obtain ⟨exact, reduced, exact_eq, reduced_eq, same⟩ := residue_exact_binary op ring m n
      refine ⟨exact, ?_, ?_⟩
      · simp only [Term.binary, compute, left_exact, right_exact, bind, Except.bind, exact_eq]
        rfl
      · simp only [Term.binary, compute, left_reduced, right_reduced, bind, Except.bind, reduced_eq]
        exact congrArg Except.ok same
  | shiftLeft operand count range ih =>
      obtain ⟨n, exact, reduced⟩ := ih
      refine ⟨n * 2 ^ count.toInt.toNat, ?_, ?_⟩
      · simp only [Term.binary, compute, leaf, exact, bind, Except.bind, BinaryOp.exact, id, range,
          and_self, ↓reduceIte]
        rfl
      · simp only [Term.binary, compute, leaf, reduced, bind, Except.bind, BinaryOp.exact,
          residue_toInt, range, and_self, ↓reduceIte]
        exact congrArg Except.ok Int.bmod_mul_bmod

end Term

/-- A graph that passes the check of its shape, of numbers, names and operations alone, is evaluated
to the same value or error as over the integers, where every node is reduced to a signed 32-bit
residue. If it is a polynomial, its value is the residue of the exact one. -/
theorem Graph.eval_eq_compute (g : Graph) (env : Env) (values : String → Int32)
    (nonempty : g.isEmpty = false) (accepted : g.violations = [])
    (integral : g.term.All (·.isIntegral = true))
    (bound : ∀ name ∈ g.term.idents, env.get? name = some (.int (values name))) :
    let exact := fun name => (values name).toInt
    (∃ outcome : Except EvalError Int32, g.term.eval env = (outcome.map .int, env) ∧
      g.term.compute residue exact = outcome.map Int32.toInt) ∧
    (g.term.IsPolynomial → ∃ (result : Int32) (n : Int),
      g.term.eval env = (.ok (.int result), env) ∧ g.term.compute id exact = .ok n ∧
        result.toInt = residue n) := by
  intro exact
  have formed := ((violations_eq_nil_iff g).mp accepted).1
  obtain ⟨outcome, evaluated, computed⟩ :=
    g.term.eval_of_integral env values formed (by simpa [term] using nonempty) integral bound
  refine ⟨⟨outcome, evaluated, computed⟩, fun polynomial => ?_⟩
  obtain ⟨n, whole, reduced⟩ := g.term.compute_of_isPolynomial exact polynomial
  cases outcome with
  | error e => simp [exact, computed, Except.map] at reduced
  | ok result =>
      have same : Except.ok result.toInt = Except.ok (residue n) := computed.symm.trans reduced
      exact ⟨result, n, evaluated, whole, Except.ok.inj same⟩

/-- The quotient of the least integer by minus one is out of range, and so is the square of the
least integer, here under a complement and a shift. -/
theorem Graph.eval_eq_compute_least :
    let quotient : Graph := .node (0, .binary .div) (.node (1, .ident "x") .empty .empty)
      (.node (2, .unary .negate) (.node (3, .number 1) .empty .empty) .empty)
    let square : Graph := .node (0, .binary .shl)
      (.node (1, .unary .bitNot) (.node (2, .binary .mul) (.node (3, .ident "x") .empty .empty)
        (.node (4, .ident "x") .empty .empty)) .empty)
      (.node (5, .number 3) .empty .empty)
    let env := Env.empty.set "x" (.int Int32.minValue)
    let least := fun _ : String => Int32.minValue.toInt
    quotient.violations = [] ∧ square.violations = [] ∧
      quotient.term.compute residue least = .ok (-2 ^ 31) ∧
      quotient.term.eval env = (.ok (.int Int32.minValue), env) ∧
      square.term.compute id least = .ok (-2 ^ 65 - 8) ∧
      ∃ result : Int32, square.term.eval env = (.ok (.int result), env) ∧
        result.toInt = residue (-2 ^ 65 - 8) := by
  intro quotient square env least
  have accepted (g : Graph) (formed : g.term.WellFormed) (distinct : g.ids.Nodup) :
      g.violations = [] :=
    (violations_eq_nil_iff g).mpr ⟨formed, (nodup_ids_iff g).mp distinct⟩
  have first := accepted quotient
    ⟨rfl, ⟨rfl, trivial, trivial⟩, rfl, ⟨rfl, trivial, trivial⟩, trivial⟩ (by decide)
  have second := accepted square
    ⟨rfl, ⟨rfl, ⟨rfl, ⟨rfl, trivial, trivial⟩, rfl, trivial, trivial⟩, trivial⟩, rfl, trivial,
      trivial⟩ (by decide)
  obtain ⟨⟨outcome, evaluated, computed⟩, -⟩ := eval_eq_compute quotient env
    (fun _ => Int32.minValue) rfl first (by simp [quotient, term, Tree.map, Label.isIntegral])
    (by decide)
  obtain ⟨result, n, evaluated', whole, value⟩ := (eval_eq_compute square env
    (fun _ => Int32.minValue) rfl second (by simp [square, term, Tree.map, Label.isIntegral])
    (by decide)).2
    (.shiftLeft (.unary .bitNot (.binary .mul (by simp) (.ident "x") (.ident "x"))) 3 (by decide))
  have reduced : quotient.term.compute residue least = .ok (-2 ^ 31) := by rfl
  have exact : square.term.compute id least = .ok (-2 ^ 65 - 8) := by rfl
  obtain rfl : -2 ^ 65 - 8 = n := Except.ok.inj (exact.symm.trans whole)
  obtain rfl : outcome = .ok Int32.minValue := by
    cases outcome with
    | error e => cases computed.symm.trans reduced
    | ok r =>
        have same : r.toInt = Int32.minValue.toInt := Except.ok.inj (computed.symm.trans reduced)
        rw [Int32.toInt_inj.mp same]
  exact ⟨first, second, reduced, evaluated, exact, result, evaluated', value⟩

end Abacus
