import Abacus.Value

/-!
Environments: finite maps from names to values, kept in the order of the names.
-/
namespace Abacus

/-- Names in increasing order, each with its value. -/
structure Env where
  bindings : List (String × Value)
  sorted : bindings.Pairwise (·.1 < ·.1)

namespace Env

def empty : Env := ⟨[], .nil⟩

def size (env : Env) : Nat :=
  env.bindings.length

def names (env : Env) : List String :=
  env.bindings.map (·.1)

def get? (env : Env) (name : String) : Option Value :=
  env.bindings.lookup name

def insert (name : String) (value : Value) : List (String × Value) → List (String × Value)
  | [] => [(name, value)]
  | (first, old) :: rest =>
      if name < first then (name, value) :: (first, old) :: rest
      else if name = first then (name, value) :: rest
      else (first, old) :: insert name value rest

theorem fst_eq_or_mem_of_mem_insert (name : String) (value : Value)
    (bindings : List (String × Value)) (b : String × Value)
    (member : b ∈ insert name value bindings) : b.1 = name ∨ b ∈ bindings := by
  induction bindings with
  | nil => simp_all [insert]
  | cons first rest ih =>
      simp only [insert] at member
      grind

theorem sorted_insert (name : String) (value : Value) (bindings : List (String × Value))
    (sorted : bindings.Pairwise (·.1 < ·.1)) :
    (insert name value bindings).Pairwise (·.1 < ·.1) := by
  induction bindings with
  | nil => simp [insert]
  | cons first rest ih =>
      obtain ⟨below, rest_sorted⟩ := List.pairwise_cons.mp sorted
      simp only [insert]
      split
      · rename_i before
        refine List.pairwise_cons.mpr ⟨?_, sorted⟩
        intro b member
        rcases List.mem_cons.mp member with rfl | member
        · exact before
        · exact String.lt_trans before (below b member)
      · split
        · rename_i same
          subst same
          exact List.pairwise_cons.mpr ⟨below, rest_sorted⟩
        · rename_i not_before different
          refine List.pairwise_cons.mpr ⟨?_, ih rest_sorted⟩
          intro b member
          rcases fst_eq_or_mem_of_mem_insert name value rest b member with same | member
          · rw [same]
            exact Decidable.byContradiction fun not_after => different
              (String.le_antisymm (String.not_lt.mp not_after) (String.not_lt.mp not_before))
          · exact below b member

def set (env : Env) (name : String) (value : Value) : Env :=
  ⟨insert name value env.bindings, sorted_insert name value env.bindings env.sorted⟩

end Env
end Abacus
