import Abacus.Env

/-!
What a change of one binding does to the others. Main statement: `ext_get?`, an environment is
determined by the values it gives to names.
-/
namespace Abacus.Env

theorem lookup_cons_of_ne (name : String) (b : String × Value) (bindings : List (String × Value))
    (different : name ≠ b.1) : (b :: bindings).lookup name = bindings.lookup name := by
  rw [List.lookup_cons, beq_false_of_ne different]

theorem lookup_cons_fst (b : String × Value) (bindings : List (String × Value)) :
    (b :: bindings).lookup b.1 = some b.2 := by
  obtain ⟨name, value⟩ := b
  simp

theorem lookup_insert_self (name : String) (value : Value) (bindings : List (String × Value)) :
    (insert name value bindings).lookup name = some value := by
  induction bindings with
  | nil => exact lookup_cons_fst (name, value) []
  | cons first rest ih =>
      simp only [insert]
      split
      · exact lookup_cons_fst (name, value) _
      · split
        · exact lookup_cons_fst (name, value) _
        · rename_i different
          rw [lookup_cons_of_ne name first _ different, ih]

theorem lookup_insert_of_ne (name other : String) (value : Value)
    (bindings : List (String × Value)) (different : other ≠ name) :
    (insert name value bindings).lookup other = bindings.lookup other := by
  induction bindings with
  | nil => exact lookup_cons_of_ne other (name, value) [] different
  | cons first rest ih =>
      simp only [insert]
      split
      · exact lookup_cons_of_ne other (name, value) _ different
      · split
        · rename_i same
          subst same
          rw [lookup_cons_of_ne other (first.1, value) rest different,
            lookup_cons_of_ne other first rest different]
        · obtain ⟨found, old⟩ := first
          simp only [List.lookup_cons, ih]

@[simp] theorem get?_empty (name : String) : empty.get? name = none := rfl

@[simp] theorem get?_set_self (env : Env) (name : String) (value : Value) :
    (env.set name value).get? name = some value :=
  lookup_insert_self name value env.bindings

theorem get?_set_of_ne (env : Env) (name other : String) (value : Value)
    (different : other ≠ name) : (env.set name value).get? other = env.get? other :=
  lookup_insert_of_ne name other value env.bindings different

theorem lookup_eq_none_of_lt (name : String) (bindings : List (String × Value))
    (below : ∀ b ∈ bindings, name < b.1) : bindings.lookup name = none := by
  induction bindings with
  | nil => rfl
  | cons first rest ih =>
      have different : name ≠ first.1 := by
        intro same
        exact String.lt_irrefl name (same ▸ below first List.mem_cons_self)
      have rest_below : ∀ b ∈ rest, name < b.1 := fun b member =>
        below b (List.mem_cons_of_mem first member)
      rw [lookup_cons_of_ne name first rest different, ih rest_below]

theorem eq_of_lookup_eq (a b : List (String × Value)) (sorted_a : a.Pairwise (·.1 < ·.1))
    (sorted_b : b.Pairwise (·.1 < ·.1)) (same : ∀ name, a.lookup name = b.lookup name) :
    a = b := by
  induction a generalizing b with
  | nil =>
      cases b with
      | nil => rfl
      | cons second rest => simpa [lookup_cons_fst] using same second.1
  | cons first as ih =>
      cases b with
      | nil => simpa [lookup_cons_fst] using same first.1
      | cons second bs =>
          obtain ⟨below_a, rest_a⟩ := List.pairwise_cons.mp sorted_a
          obtain ⟨below_b, rest_b⟩ := List.pairwise_cons.mp sorted_b
          have names : first.1 = second.1 := by
            rcases Decidable.em (first.1 < second.1) with before | not_before
            · have absent : (second :: bs).lookup first.1 = none := by
                apply lookup_eq_none_of_lt
                intro b member
                rcases List.mem_cons.mp member with rfl | member
                · exact before
                · exact String.lt_trans before (below_b b member)
              simpa [absent, lookup_cons_fst] using same first.1
            · rcases Decidable.em (second.1 < first.1) with after | not_after
              · have absent : (first :: as).lookup second.1 = none := by
                  apply lookup_eq_none_of_lt
                  intro b member
                  rcases List.mem_cons.mp member with rfl | member
                  · exact after
                  · exact String.lt_trans after (below_a b member)
                simpa [absent, lookup_cons_fst] using same second.1
              · exact String.le_antisymm (String.not_lt.mp not_after)
                  (String.not_lt.mp not_before)
          have values : first.2 = second.2 := by
            have found := same first.1
            rw [lookup_cons_fst, names, lookup_cons_fst] at found
            exact Option.some.inj found
          have rests : as = bs := by
            apply ih bs rest_a rest_b
            intro name
            rcases Decidable.em (name = first.1) with at_first | elsewhere
            · rw [at_first, lookup_eq_none_of_lt _ _ below_a, names,
                lookup_eq_none_of_lt _ _ below_b]
            · rw [← lookup_cons_of_ne name first as elsewhere,
                ← lookup_cons_of_ne name second bs (names ▸ elsewhere), same name]
          rw [rests, Prod.ext names values]

theorem ext_get? (a b : Env) (same : ∀ name, a.get? name = b.get? name) : a = b := by
  have bindings := eq_of_lookup_eq a.bindings b.bindings a.sorted b.sorted same
  cases a
  cases b
  simpa using bindings

end Abacus.Env
