import Abacus.Proofs.Tree.Sharing
import Mathlib.Logic.ExistsUnique

/-!
The order in which the nodes of a graph are met. Main statement: however its nodes are shared, what
is wrong with a node is reported once, in the depth-first order of the first paths to the nodes.
-/
namespace Abacus

section Order

instance : LT Side where
  lt a b := a = .left ∧ b = .right

@[simp] theorem Side.lt_iff (a b : Side) : a < b ↔ a = .left ∧ b = .right :=
  Iff.rfl

instance : Std.Asymm fun a b : Side => a < b where
  asymm a b := by cases a <;> cases b <;> simp

instance : Std.Trichotomous fun a b : Side => a < b where
  trichotomous a b := by cases a <;> cases b <;> simp

end Order

def Flaw.occurs (flaw : Flaw) (arity : Option Operation.Arity) (noLeft noRight : Bool) : Bool :=
  match flaw with
  | .shared => false
  | .leafWithChildren => arity = some .leaf && !(noLeft && noRight)
  | .missingOperand => arity = some .unary && noLeft
  | .extraRight => arity = some .unary && !noRight
  | .missingLeft => arity = some .binary && noLeft
  | .missingRight => arity = some .binary && noRight
  | .unknownOperation => arity = none

theorem Operation.flaws_eq_filter (op : Operation) (noLeft noRight : Bool) :
    op.flaws noLeft noRight =
      [.leafWithChildren, .missingOperand, .extraRight, .missingLeft, .missingRight,
        .unknownOperation].filter fun flaw : Flaw => flaw.occurs op.arity? noLeft noRight := by
  unfold Operation.flaws
  rcases op.arity? with - | - | - | - <;> cases noLeft <;> cases noRight <;> rfl

namespace Graph

def Coherent (g : Graph) : Prop :=
  ∀ (id : Nat) (path other : List Side), g.Reaches path id → g.Reaches other id →
    g.walk path = g.walk other

def First (g : Graph) (path : List Side) (id : Nat) : Prop :=
  g.Reaches path id ∧ ∀ other, g.Reaches other id → path ≤ other

def rootViolations : Graph → List Violation
  | .empty => []
  | .node (_, label) left right =>
      ([.leafWithChildren, .missingOperand, .extraRight, .missingLeft, .missingRight,
        .unknownOperation].filter fun flaw : Flaw =>
          flaw.occurs label.operation.arity? left.isEmpty right.isEmpty).map
        (⟨label.operation, ·⟩)

section First
variable (id other : Nat) (label : Label) (left right : Graph) (path : List Side)

theorem first_nil : First (.node (id, label) left right) [] other ↔ id = other := by
  simp [First]

theorem first_left :
    First (.node (id, label) left right) (.left :: path) other ↔
      id ≠ other ∧ left.First path other := by
  simp only [First, reaches_left]
  rw [forall_path_iff]
  simp only [reaches_nil, reaches_left, reaches_right, List.le_nil, List.cons_le_cons_iff,
    Side.lt_iff]
  grind

theorem first_right :
    First (.node (id, label) left right) (.right :: path) other ↔
      id ≠ other ∧ other ∉ ids left ∧ right.First path other := by
  simp only [First, reaches_right, mem_ids_iff]
  rw [forall_path_iff]
  simp only [reaches_nil, reaches_left, reaches_right, List.le_nil, List.cons_le_cons_iff,
    Side.lt_iff]
  grind

end First

theorem exists_first (g : Graph) (id : Nat) (member : id ∈ g.ids) : ∃ path, g.First path id := by
  induction g with
  | empty => simp at member
  | node root left right ih_left ih_right =>
      obtain ⟨first, label⟩ := root
      by_cases same : first = id
      · exact ⟨[], (first_nil first id label left right).mpr same⟩
      · by_cases below : id ∈ ids left
        · obtain ⟨path, found⟩ := ih_left below
          exact ⟨.left :: path, (first_left first id label left right path).mpr ⟨same, found⟩⟩
        · obtain ⟨path, found⟩ := ih_right (by grind [ids_node])
          exact ⟨.right :: path,
            (first_right first id label left right path).mpr ⟨same, below, found⟩⟩

theorem ids_walk_sublist (g : Graph) (path : List Side) : (ids (g.walk path)).Sublist g.ids := by
  induction g generalizing path with
  | empty => simp
  | node root left right ih_left ih_right =>
      obtain ⟨id, label⟩ := root
      match path with
      | [] => exact List.Sublist.refl _
      | .left :: path =>
          rw [ids_node]
          exact ((ih_left path).trans (List.sublist_append_left _ _)).cons id
      | .right :: path =>
          rw [ids_node]
          exact ((ih_right path).trans (List.sublist_append_right _ _)).cons id

theorem length_ids_walk_lt (id : Nat) (label : Label) (left right : Graph) (side : Side)
    (path : List Side) :
    (ids (Tree.walk (.node (id, label) left right) (side :: path))).length <
      (ids (.node (id, label) left right)).length := by
  rw [ids_node, List.length_cons, List.length_append]
  cases side with
  | left =>
      have below := (ids_walk_sublist left path).length_le
      rw [Tree.walk_left]
      omega
  | right =>
      have below := (ids_walk_sublist right path).length_le
      rw [Tree.walk_right]
      omega

section Coherent
variable {id : Nat} {label : Label} {left right : Graph}
  (coherent : Coherent (.node (id, label) left right))
include coherent

theorem coherent_left : left.Coherent := fun other path path' reached reached_again =>
  coherent other (.left :: path) (.left :: path') reached reached_again

theorem coherent_right : right.Coherent := fun other path path' reached reached_again =>
  coherent other (.right :: path) (.right :: path') reached reached_again

theorem not_reaches_of_coherent (side : Side) (path : List Side) :
    ¬ Reaches (.node (id, label) left right) (side :: path) id := by
  intro reached
  -- below itself the node would be as large as the whole
  have same := coherent id [] (side :: path) (by simp) reached
  have smaller := length_ids_walk_lt id label left right side path
  rw [← same, Tree.walk_nil] at smaller
  exact Nat.lt_irrefl _ smaller

end Coherent

def Settled (seen : Std.HashSet Nat) (g : Graph) : Prop :=
  ∀ (path : List Side) (id : Nat), g.Reaches path id → id ∈ seen →
    ∀ other ∈ ids (g.walk path), other ∈ seen

section Settled
variable {seen : Std.HashSet Nat} {id : Nat} {label : Label} {left right : Graph}
  (settled : Settled seen (.node (id, label) left right))
  (coherent : Coherent (.node (id, label) left right))
include settled coherent

theorem settled_left : Settled (seen.insert id) left := by
  intro path other reached marked below member
  rw [Std.HashSet.mem_insert, beq_iff_eq] at marked ⊢
  rcases marked with rfl | marked
  · exact absurd reached (not_reaches_of_coherent coherent .left path)
  · exact .inr (settled (.left :: path) other reached marked below member)

theorem settled_right (after : Std.HashSet Nat)
    (marks : ∀ other, other ∈ after ↔ other ∈ seen.insert id ∨ other ∈ ids left) :
    Settled after right := by
  intro path other reached marked below member
  rw [marks, Std.HashSet.mem_insert, beq_iff_eq] at marked ⊢
  rcases marked with (rfl | marked) | shared
  · exact absurd reached (not_reaches_of_coherent coherent .right path)
  · exact .inl (.inr (settled (.right :: path) other reached marked below member))
  · -- what the children share has been seen on the left, with all that is below it
    obtain ⟨path', reached'⟩ := (mem_ids_iff left other).mp shared
    have same := coherent other (.right :: path) (.left :: path') reached reached'
    simp only [Tree.walk_right, Tree.walk_left] at same
    rw [same] at member
    exact .inr ((ids_walk_sublist left path').subset member)

end Settled

structure Visits (seen : Std.HashSet Nat) (g : Graph) (visits : List (List Side)) : Prop where
  ordered : visits.Pairwise (· < ·)
  mem_iff : ∀ path, path ∈ visits ↔ ∃ id, id ∉ seen ∧ g.First path id

theorem visits_nil (seen : Std.HashSet Nat) (g : Graph) (all : ∀ id ∈ g.ids, id ∈ seen) :
    Visits seen g [] where
  ordered := .nil
  mem_iff path := by
    simp only [List.not_mem_nil, false_iff, not_exists, not_and]
    intro id fresh first
    exact fresh (all id ((mem_ids_iff g id).mpr ⟨path, first.1⟩))

theorem visits_node (seen after : Std.HashSet Nat) (id : Nat) (label : Label) (left right : Graph)
    (fresh : id ∉ seen) (marks : ∀ other, other ∈ after ↔ other ∈ seen.insert id ∨ other ∈ ids left)
    (lefts rights : List (List Side)) (left_visits : Visits (seen.insert id) left lefts)
    (right_visits : Visits after right rights) :
    Visits seen (.node (id, label) left right)
      ([] :: (lefts.map (.left :: ·) ++ rights.map (.right :: ·))) where
  ordered := by
    rw [List.pairwise_cons, List.pairwise_append, List.pairwise_map, List.pairwise_map]
    refine ⟨?_, ?_, ?_, ?_⟩
    · intro path member
      cases path with
      | nil => simp at member
      | cons side path => exact List.nil_lt_cons side path
    · exact left_visits.ordered.imp fun before => List.cons_lt_cons_iff.mpr (.inr ⟨rfl, before⟩)
    · exact right_visits.ordered.imp fun before => List.cons_lt_cons_iff.mpr (.inr ⟨rfl, before⟩)
    · intro path member path' member'
      obtain ⟨path, -, rfl⟩ := List.mem_map.mp member
      obtain ⟨path', -, rfl⟩ := List.mem_map.mp member'
      exact List.cons_lt_cons_iff.mpr (.inl ⟨rfl, rfl⟩)
  mem_iff path := by
    have lefts_iff := left_visits.mem_iff
    have rights_iff := right_visits.mem_iff
    simp only [marks, Std.HashSet.mem_insert, beq_iff_eq] at lefts_iff rights_iff
    match path with
    | [] => simp [first_nil, fresh]
    | .left :: path =>
        have below : .left :: path ∈ [] :: (lefts.map (.left :: ·) ++ rights.map (.right :: ·)) ↔
          path ∈ lefts := by simp
        simp only [below, lefts_iff, first_left]
        grind
    | .right :: path =>
        have below : .right :: path ∈ [] :: (lefts.map (.left :: ·) ++ rights.map (.right :: ·)) ↔
          path ∈ rights := by simp
        simp only [below, rights_iff, first_right]
        grind

theorem flaw_ne_shared (g : Graph) : ∀ v ∈ g.rootViolations, v.flaw ≠ .shared := by
  cases g with
  | empty => simp [rootViolations]
  | node root left right =>
      simp only [rootViolations, List.mem_map, List.mem_filter]
      rintro v ⟨flaw, ⟨-, occurs⟩, rfl⟩ rfl
      exact absurd occurs Bool.false_ne_true

/-- A walk marks all nodes, and reports what is wrong with those that have not been seen in the
order in which it meets them. -/
theorem exists_visits (g : Graph) (seen : Std.HashSet Nat) (coherent : g.Coherent)
    (settled : Settled seen g) :
    (∀ id, id ∈ (violationsFrom seen g).2 ↔ id ∈ seen ∨ id ∈ g.ids) ∧
      ∃ visits, Visits seen g visits ∧
        (violationsFrom seen g).1.filter (·.flaw ≠ .shared) =
          visits.flatMap fun path => rootViolations (g.walk path) := by
  induction g generalizing seen with
  | empty => exact ⟨by simp [violationsFrom], [], visits_nil seen _ (by simp), rfl⟩
  | node root left right ih_left ih_right =>
      obtain ⟨id, label⟩ := root
      by_cases met : id ∈ seen
      · have all : ∀ other ∈ ids (.node (id, label) left right), other ∈ seen :=
          settled [] id (by simp) met
        have again : violationsFrom seen (.node (id, label) left right) =
            ([⟨label.operation, .shared⟩], seen) := by
          simp [violationsFrom, Std.HashSet.contains_iff_mem.mpr met]
        rw [again]
        refine ⟨fun other => ?_, [], visits_nil seen _ all, rfl⟩
        exact ⟨.inl, fun either => either.elim (fun seen => seen) (all other)⟩
      · obtain ⟨left_marks, lefts, left_visits, left_eq⟩ :=
          ih_left (seen.insert id) (coherent_left coherent) (settled_left settled coherent)
        obtain ⟨right_marks, rights, right_visits, right_eq⟩ :=
          ih_right _ (coherent_right coherent) (settled_right settled coherent _ left_marks)
        rw [violationsFrom_node seen id label left right met]
        have visits := visits_node seen _ id label left right met left_marks lefts rights
          left_visits right_visits
        refine ⟨fun other => ?_, _, visits, ?_⟩
        · rw [right_marks, left_marks, Std.HashSet.mem_insert, beq_iff_eq, ids_node, List.mem_cons,
            List.mem_append]
          grind
        · have own := List.filter_eq_self.mpr fun v member => decide_eq_true
            (flaw_ne_shared (.node (id, label) left right) v member)
          simp only [List.filter_append, left_eq, right_eq, List.flatMap_cons, List.flatMap_append,
            List.flatMap_map, Tree.walk_nil, Tree.walk_left, Tree.walk_right, List.append_assoc]
          rw [Operation.flaws_eq_filter]
          exact congrArg (· ++ _) own

section Shape

/-- The operation at the root is known, and the root has the children of its class: a leaf none, a
unary operation a left one, a binary operation both. -/
def ProperRoot : Graph → Prop
  | .empty => True
  | .node (_, label) left right =>
      match label.operation.arity? with
      | some .leaf => left.isEmpty = true ∧ right.isEmpty = true
      | some .unary => left.isEmpty = false ∧ right.isEmpty = true
      | some .binary => left.isEmpty = false ∧ right.isEmpty = false
      | none => False

theorem properRoot_iff (g : Graph) : ProperRoot g ↔ rootViolations g = [] := by
  cases g with
  | empty => simp [ProperRoot, rootViolations]
  | node root left right =>
      simp only [ProperRoot, rootViolations, List.map_eq_nil_iff]
      rcases root.2.operation.arity? with - | - | - | - <;>
        cases left.isEmpty <;> cases right.isEmpty <;> simp [Flaw.occurs]

theorem wellFormed_term_iff (g : Graph) :
    g.term.WellFormed ↔ ∀ path, ProperRoot (g.walk path) := by
  induction g with
  | empty => simp [term, Tree.map, Term.WellFormed, ProperRoot]
  | node root left right ih_left ih_right =>
      rw [Tree.forall_walk_node, ← ih_left, ← ih_right, properRoot_iff]
      simp [term, Tree.map, Term.WellFormed, rootViolations, Operation.flaws_eq_filter]

end Shape

theorem reaches_unique (g : Graph) (path : List Side) (id other : Nat) (reached : g.Reaches path id)
    (reached_again : g.Reaches path other) : id = other := by
  obtain ⟨label, left, right, here⟩ := reached
  obtain ⟨label', left', right', here'⟩ := reached_again
  simp_all

theorem existsUnique_visit (g : Graph) (visits : List (List Side)) (complete : Visits ∅ g visits)
    (id : Nat) (path : List Side) (reached : g.Reaches path id) :
    ∃! first, first ∈ visits ∧ g.Reaches first id := by
  obtain ⟨first, found⟩ := g.exists_first id ((mem_ids_iff g id).mpr ⟨path, reached⟩)
  have member := (complete.mem_iff first).mpr ⟨id, by simp, found⟩
  refine ⟨first, ⟨member, found.1⟩, ?_⟩
  rintro other ⟨other_member, other_reached⟩
  obtain ⟨id', -, other_found⟩ := (complete.mem_iff other).mp other_member
  obtain rfl := g.reaches_unique other id id' other_reached other_found.1
  exact List.le_antisymm (other_found.2 first found.1) (found.2 other other_reached)

/-- A graph has no violations exactly if every node that a path leads to has a known operation with
the children of its class, and no node is at the end of two paths. Whatever is shared, the
violations of operations and children are those of every node once, in the depth-first order of the
first paths to the nodes. -/
theorem violations_exact (g : Graph) :
    (g.violations = [] ↔ (∀ path, ProperRoot (g.walk path)) ∧ g.Unshared) ∧
    (g.Coherent → ∃ visits : List (List Side),
      (∀ id path, g.Reaches path id → ∃! first, first ∈ visits ∧ g.Reaches first id) ∧
      (∀ path ∈ visits, ∃ id, g.First path id) ∧ visits.Pairwise (· < ·) ∧
      g.violations.filter (·.flaw ≠ .shared) =
        visits.flatMap fun path => rootViolations (g.walk path)) := by
  constructor
  · rw [violations_eq_nil_iff, wellFormed_term_iff]
  · intro coherent
    obtain ⟨-, visits, complete, report⟩ := g.exists_visits ∅ coherent (by simp [Settled])
    refine ⟨visits, g.existsUnique_visit visits complete, ?_, complete.ordered, report⟩
    intro path member
    obtain ⟨id, -, first⟩ := (complete.mem_iff path).mp member
    exact ⟨id, first⟩

def Listed (table : Nat → Graph) (g : Graph) : Prop :=
  ∀ (path : List Side) (id : Nat), g.Reaches path id → g.walk path = table id

theorem listed_empty (table : Nat → Graph) : Listed table .empty := by
  simp [Listed]

theorem listed_node (table : Nat → Graph) (id : Nat) (label : Label) (left right : Graph)
    (here : table id = .node (id, label) left right) (lefts : Listed table left)
    (rights : Listed table right) : Listed table (.node (id, label) left right) := by
  refine (forall_path_iff _).mpr ⟨?_, lefts, rights⟩
  intro other reached
  obtain rfl := (reaches_nil id other label left right).mp reached
  exact here.symm

theorem coherent_of_listed (g : Graph) (table : Nat → Graph) (listed : Listed table g) :
    g.Coherent := fun id path other reached reached_again =>
  (listed path id reached).trans (listed other id reached_again).symm

/-- A sum and, on its right, a shift without left operand share a negation without operand. -/
theorem violations_exact_shared :
    let negation : Graph := .node (1, .unary .negate) .empty .empty
    let shift : Graph := .node (2, .binary .shl) .empty negation
    let g : Graph := .node (0, .binary .add) negation shift
    g.violations = [⟨.unary .negate, .missingOperand⟩, ⟨.binary .shl, .missingLeft⟩,
        ⟨.unary .negate, .shared⟩] ∧
      g.Coherent ∧ ¬ g.Unshared ∧
      ∃ visits : List (List Side), visits.Pairwise (· < ·) ∧
        [⟨.unary .negate, .missingOperand⟩, ⟨.binary .shl, .missingLeft⟩] =
          visits.flatMap fun path => rootViolations (g.walk path) := by
  intro negation shift g
  have found : g.violations = [⟨.unary .negate, .missingOperand⟩, ⟨.binary .shl, .missingLeft⟩,
      ⟨.unary .negate, .shared⟩] := by
    simp [g, shift, negation, violations, violationsFrom, Tree.isEmpty, Label.operation,
      Operation.flaws, Operation.arity?]
  have coherent : g.Coherent := by
    let table : Nat → Graph := fun id => [g, negation, shift].getD id .empty
    have nothing := listed_empty table
    have negations := listed_node table 1 (.unary .negate) _ _ rfl nothing nothing
    have shifts := listed_node table 2 (.binary .shl) _ _ rfl nothing negations
    exact g.coherent_of_listed table (listed_node table 0 (.binary .add) _ _ rfl negations shifts)
  have shared : ¬ g.Unshared := fun unshared =>
    absurd (unshared 1 [.left] [.right, .right] ⟨_, _, _, rfl⟩ ⟨_, _, _, rfl⟩) (by decide)
  obtain ⟨visits, -, -, ordered, report⟩ := g.violations_exact.2 coherent
  rw [found] at report
  exact ⟨found, coherent, shared, visits, ordered, report⟩

end Graph
end Abacus
