import Abacus.Proofs.Grammar
import Abacus.Tree.Shape

/-!
Terms in which every node has the children of its operation. Main statement: the terms of scripts
are among them.
-/
namespace Abacus

namespace Tree
variable {α : Type}

def All (p : α → Prop) (t : Tree α) : Prop :=
  ∀ label ∈ t.preorder fun _ => true, p label

@[simp] theorem all_empty (p : α → Prop) : All p .empty := by
  simp [All, preorder]

@[simp] theorem all_node (p : α → Prop) (label : α) (left right : Tree α) :
    All p (.node label left right) ↔ p label ∧ left.All p ∧ right.All p := by
  simp [All, preorder, or_imp, forall_and]

end Tree

def Term.WellFormed : Term → Prop
  | .empty => True
  | .node label left right =>
      label.operation.flaws left.isEmpty right.isEmpty = [] ∧
        WellFormed left ∧ WellFormed right

instance Term.decidableWellFormed : (t : Term) → Decidable t.WellFormed
  | .empty => isTrue trivial
  | .node label left right =>
      have := decidableWellFormed left
      have := decidableWellFormed right
      inferInstanceAs (Decidable (label.operation.flaws left.isEmpty right.isEmpty = [] ∧
        WellFormed left ∧ WellFormed right))

namespace Term

theorem wellFormed_glue (first second : Term) (left : first.WellFormed) (right : second.WellFormed)
    (left_nonempty : first.isEmpty = false) (right_nonempty : second.isEmpty = false) :
    WellFormed (.node .glue first second) := by
  simp [WellFormed, Label.operation, Operation.flaws, Operation.arity?, left, right, left_nonempty,
    right_nonempty]

theorem wellFormed_filter (terms : List Term) (all : ∀ t ∈ terms, t.WellFormed) :
    ∀ t ∈ terms.filter (!·.isEmpty), t.WellFormed ∧ t.isEmpty = false := by
  intro t member
  obtain ⟨member, nonempty⟩ := List.mem_filter.mp member
  exact ⟨all t member, by simpa using nonempty⟩

end Term

namespace Grammar

theorem Phrase.wellFormed_term {c : Category} (x : Phrase c) : x.term.WellFormed := by
  induction x with
  | integer | float | name => exact ⟨rfl, trivial, trivial⟩
  | paren _ ih => exact ih
  | plus _ ih => exact ih
  | lone _ _ ih => exact ih
  | sign op operand ih =>
      refine ⟨?_, ih, trivial⟩
      rw [operand.isEmpty_term]
      rfl
  | binary _ op _ left right ih_left ih_right =>
      refine ⟨?_, ih_left, ih_right⟩
      rw [left.isEmpty_term, right.isEmpty_term]
      rfl
  | assign left right ih_left ih_right =>
      refine ⟨?_, ih_left, ih_right⟩
      rw [left.isEmpty_term, right.isEmpty_term]
      rfl

theorem Statement.wellFormed_termsOfAll (body : List Statement) :
    ∀ t ∈ termsOfAll body, t.WellFormed := by
  intro t member
  cases t with
  | empty => trivial
  | node label left right =>
      refine (termsOfAll_of_closed (fun t => t.WellFormed ∧ t.isEmpty = false) (fun _ => True) ?_ ?_
        body (fun _ _ => trivial) _ member rfl).1
      · rintro first second ⟨formed, nonempty⟩ ⟨second_formed, second_nonempty⟩
        exact ⟨Term.wellFormed_glue _ _ formed second_formed nonempty second_nonempty, rfl⟩
      · intro x _
        exact ⟨x.wellFormed_term, x.isEmpty_term⟩

theorem Statement.wellFormed_term (x : Statement) : x.term.WellFormed :=
  wellFormed_termsOfAll [x] x.term List.mem_cons_self

end Grammar
end Abacus
