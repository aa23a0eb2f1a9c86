import Abacus.Proofs.Tree.WellFormed

/-!
Paths from the root of a graph to its nodes. Main statement: no violations are found exactly if
every node has the children of its operation and none is at the end of two paths, which in a term
none is.
-/
namespace Abacus

inductive Side where
  | left
  | right
  deriving DecidableEq, Repr

theorem forall_path_iff (p : List Side → Prop) :
    (∀ path, p path) ↔ p [] ∧ (∀ path, p (.left :: path)) ∧ ∀ path, p (.right :: path) := by
  constructor
  · intro all
    exact ⟨all [], fun path => all (.left :: path), fun path => all (.right :: path)⟩
  · rintro ⟨root, lefts, rights⟩ path
    match path with
    | [] => exact root
    | .left :: path => exact lefts path
    | .right :: path => exact rights path

namespace Tree
variable {α β : Type}

def walk : Tree α → List Side → Tree α
  | t, [] => t
  | .empty, _ :: _ => .empty
  | .node _ left _, .left :: path => left.walk path
  | .node _ _ right, .right :: path => right.walk path

@[simp] theorem walk_empty (path : List Side) : (.empty : Tree α).walk path = .empty := by
  cases path <;> rfl

@[simp] theorem walk_nil (t : Tree α) : t.walk [] = t := by
  cases t <;> rfl

@[simp] theorem walk_left (label : α) (left right : Tree α) (path : List Side) :
    (node label left right).walk (.left :: path) = left.walk path := rfl

@[simp] theorem walk_right (label : α) (left right : Tree α) (path : List Side) :
    (node label left right).walk (.right :: path) = right.walk path := rfl

theorem forall_walk_node (p : Tree α → Prop) (label : α) (left right : Tree α) :
    (∀ path, p ((node label left right).walk path)) ↔
      p (node label left right) ∧ (∀ path, p (left.walk path)) ∧ ∀ path, p (right.walk path) :=
  forall_path_iff fun path => p ((node label left right).walk path)

@[simp] theorem isEmpty_map (f : α → β) (t : Tree α) : (t.map f).isEmpty = t.isEmpty := by
  cases t <;> rfl

end Tree

namespace Graph

def ids (g : Graph) : List Nat :=
  (g.preorder fun _ => true).map Prod.fst

@[simp] theorem ids_empty : ids .empty = [] := rfl

@[simp] theorem ids_node (id : Nat) (label : Label) (left right : Graph) :
    ids (.node (id, label) left right) = id :: (left.ids ++ right.ids) := by
  simp [ids, Tree.preorder]

def Reaches (g : Graph) (path : List Side) (id : Nat) : Prop :=
  ∃ label left right, g.walk path = .node (id, label) left right

section Reaches
variable (id other : Nat) (label : Label) (left right : Graph) (path : List Side)

@[simp] theorem not_reaches_empty : ¬ Reaches .empty path id := by
  simp [Reaches]

@[simp] theorem reaches_nil : Reaches (.node (id, label) left right) [] other ↔ id = other := by
  simp [Reaches]

@[simp] theorem reaches_left :
    Reaches (.node (id, label) left right) (.left :: path) other ↔ left.Reaches path other :=
  Iff.rfl

@[simp] theorem reaches_right :
    Reaches (.node (id, label) left right) (.right :: path) other ↔ right.Reaches path other :=
  Iff.rfl

end Reaches

theorem mem_ids_iff (g : Graph) (id : Nat) : id ∈ g.ids ↔ ∃ path, g.Reaches path id := by
  induction g with
  | empty => simp
  | node root left right ih_left ih_right =>
      obtain ⟨first, label⟩ := root
      rw [ids_node, List.mem_cons, List.mem_append, ih_left, ih_right]
      constructor
      · rintro (rfl | ⟨path, reached⟩ | ⟨path, reached⟩)
        · exact ⟨[], by simp⟩
        · exact ⟨.left :: path, reached⟩
        · exact ⟨.right :: path, reached⟩
      · rintro ⟨path, reached⟩
        match path with
        | [] => exact .inl (by simpa [eq_comm] using reached)
        | .left :: path => exact .inr (.inl ⟨path, reached⟩)
        | .right :: path => exact .inr (.inr ⟨path, reached⟩)

def Unshared (g : Graph) : Prop :=
  ∀ (id : Nat) (path other : List Side), g.Reaches path id → g.Reaches other id → path = other

theorem nodup_ids_iff (g : Graph) : g.ids.Nodup ↔ g.Unshared := by
  induction g with
  | empty => simp [Unshared]
  | node root left right ih_left ih_right =>
      obtain ⟨first, label⟩ := root
      simp only [ids_node, List.nodup_cons, List.nodup_append, List.mem_append, ih_left, ih_right,
        mem_ids_iff, not_or, not_exists]
      constructor
      · rintro ⟨⟨not_left, not_right⟩, lefts, rights, apart⟩ id path other reached reached_again
        match path, other with
        | [], [] => rfl
        | [], .left :: other =>
            obtain rfl : first = id := by simpa using reached
            exact absurd reached_again (not_left other)
        | [], .right :: other =>
            obtain rfl : first = id := by simpa using reached
            exact absurd reached_again (not_right other)
        | .left :: path, [] =>
            obtain rfl : first = id := by simpa using reached_again
            exact absurd reached (not_left path)
        | .right :: path, [] =>
            obtain rfl : first = id := by simpa using reached_again
            exact absurd reached (not_right path)
        | .left :: path, .left :: other => rw [lefts id path other reached reached_again]
        | .right :: path, .right :: other => rw [rights id path other reached reached_again]
        | .left :: path, .right :: other =>
            exact absurd rfl (apart id ⟨path, reached⟩ id ⟨other, reached_again⟩)
        | .right :: path, .left :: other =>
            exact absurd rfl (apart id ⟨other, reached_again⟩ id ⟨path, reached⟩)
      · intro unshared
        refine ⟨⟨?_, ?_⟩, ?_, ?_, ?_⟩
        · intro path reached
          simpa using unshared first [] (.left :: path) (by simp) reached
        · intro path reached
          simpa using unshared first [] (.right :: path) (by simp) reached
        · intro id path other reached reached_again
          simpa using unshared id (.left :: path) (.left :: other) reached reached_again
        · intro id path other reached reached_again
          simpa using unshared id (.right :: path) (.right :: other) reached reached_again
        · rintro id ⟨path, reached⟩ _ ⟨other, reached_again⟩ rfl
          simpa using unshared id (.left :: path) (.right :: other) reached reached_again

theorem violationsFrom_node (seen : Std.HashSet Nat) (id : Nat) (label : Label)
    (left right : Graph) (fresh : id ∉ seen) :
    let lefts := violationsFrom (seen.insert id) left
    let rights := violationsFrom lefts.2 right
    violationsFrom seen (.node (id, label) left right) =
      ((label.operation.flaws left.isEmpty right.isEmpty).map (⟨label.operation, ·⟩) ++ lefts.1 ++
        rights.1, rights.2) := by
  have first : seen.contains id = false := by
    rwa [← Bool.not_eq_true, Std.HashSet.contains_iff_mem]
  simp only [violationsFrom, first, Bool.false_eq_true, ↓reduceIte]

structure Passes (seen : Std.HashSet Nat) (g : Graph) : Prop where
  formed : g.term.WellFormed
  distinct : g.ids.Nodup
  fresh : ∀ id ∈ g.ids, id ∉ seen

theorem passes_node (seen after : Std.HashSet Nat) (first : Nat) (label : Label)
    (left right : Graph) (fresh : first ∉ seen)
    (marks : Passes (seen.insert first) left →
      ∀ id, id ∈ after ↔ id ∈ seen.insert first ∨ id ∈ left.ids) :
    Passes seen (.node (first, label) left right) ↔
      label.operation.flaws left.isEmpty right.isEmpty = [] ∧
        Passes (seen.insert first) left ∧ Passes after right := by
  simp only [Std.HashSet.mem_insert, beq_iff_eq] at marks
  constructor
  · rintro ⟨⟨flaws, left_formed, right_formed⟩, distinct, unseen⟩
    rw [ids_node, List.nodup_cons, List.nodup_append] at distinct
    obtain ⟨not_below, lefts, rights, apart⟩ := distinct
    have passes : Passes (seen.insert first) left := by
      refine ⟨left_formed, lefts, ?_⟩
      grind [ids_node]
    refine ⟨by simpa using flaws, passes, right_formed, rights, ?_⟩
    grind [ids_node]
  · rintro ⟨flaws, passes, passes_right⟩
    refine ⟨⟨by simpa using flaws, passes.formed, passes_right.formed⟩, ?_, ?_⟩
    · rw [ids_node, List.nodup_cons, List.nodup_append]
      have := passes.fresh
      have := passes_right.fresh
      refine ⟨?_, passes.distinct, passes_right.distinct, ?_⟩ <;> grind
    · have := passes.fresh
      have := passes_right.fresh
      grind [ids_node]

theorem violationsFrom_eq_nil_iff (g : Graph) (seen : Std.HashSet Nat) :
    ((violationsFrom seen g).1 = [] ↔ Passes seen g) ∧
      (Passes seen g → ∀ id, id ∈ (violationsFrom seen g).2 ↔ id ∈ seen ∨ id ∈ g.ids) := by
  induction g generalizing seen with
  | empty =>
      refine ⟨⟨fun _ => ⟨trivial, List.nodup_nil, by simp⟩, fun _ => rfl⟩, ?_⟩
      simp [violationsFrom]
  | node root left right ih_left ih_right =>
      obtain ⟨first, label⟩ := root
      by_cases fresh : first ∈ seen
      · have found : (violationsFrom seen (.node (first, label) left right)).1 ≠ [] := by
          simp [violationsFrom, Std.HashSet.contains_iff_mem.mpr fresh]
        have fails : ¬ Passes seen (.node (first, label) left right) := fun passes =>
          passes.fresh first (by simp) fresh
        exact ⟨iff_of_false found fails, fun passes => absurd passes fails⟩
      · obtain ⟨left_iff, left_marks⟩ := ih_left (seen.insert first)
        obtain ⟨right_iff, right_marks⟩ := ih_right (violationsFrom (seen.insert first) left).2
        rw [violationsFrom_node seen first label left right fresh,
          passes_node seen _ first label left right fresh left_marks]
        constructor
        · simp only [List.append_eq_nil_iff, List.map_eq_nil_iff, left_iff, right_iff, and_assoc]
        · rintro ⟨-, passes_left, passes_right⟩ id
          rw [right_marks passes_right, left_marks passes_left, Std.HashSet.mem_insert, beq_iff_eq,
            ids_node, List.mem_cons, List.mem_append]
          grind

theorem violations_eq_nil_iff (g : Graph) :
    g.violations = [] ↔ g.term.WellFormed ∧ g.Unshared := by
  rw [violations, (violationsFrom_eq_nil_iff g ∅).1, ← nodup_ids_iff]
  exact ⟨fun passes => ⟨passes.formed, passes.distinct⟩,
    fun ⟨formed, distinct⟩ => ⟨formed, distinct, by simp⟩⟩

theorem ids_number (t : Term) (first : Nat) :
    ∃ count, (number t first).2 = first + count ∧
      (number t first).1.ids = List.range' first count := by
  induction t generalizing first with
  | empty => exact ⟨0, rfl, rfl⟩
  | node label left right ih_left ih_right =>
      obtain ⟨lefts, second_eq, left_eq⟩ := ih_left (first + 1)
      obtain ⟨rights, third_eq, right_eq⟩ := ih_right (first + 1 + lefts)
      refine ⟨lefts + rights + 1, ?_, ?_⟩
      · simp only [number, second_eq, third_eq]
        omega
      · simp only [number, ids_node, left_eq, right_eq, second_eq]
        rw [List.range'_succ, List.range'_append_1]

theorem nodup_ofTerm (t : Term) : (ofTerm t).ids.Nodup := by
  obtain ⟨count, -, order⟩ := ids_number t 0
  rw [ofTerm, order]
  exact List.nodup_range'

theorem term_number (t : Term) (first : Nat) : (number t first).1.term = t := by
  induction t generalizing first with
  | empty => rfl
  | node label left right ih_left ih_right =>
      show Tree.node label (number left (first + 1)).1.term
        (number right (number left (first + 1)).2).1.term = _
      rw [ih_left, ih_right]

end Graph

theorem Term.violations_eq_nil_iff (t : Term) : t.violations = [] ↔ t.WellFormed := by
  have unshared := (Graph.nodup_ids_iff _).mp (Graph.nodup_ofTerm t)
  rw [violations, Graph.violations_eq_nil_iff, Graph.ofTerm, Graph.term_number]
  exact and_iff_left unshared

end Abacus
