import Mathlib.Algebra.Order.Group.Multiset
import Mathlib.Tactic.Abel
import Abacus.Proofs.Parser.Requests
import Abacus.Proofs.Tree.Sharing

/-!
Parsing into nodes that have an identity. The machine runs on graphs in place of terms: a node that
is built takes the next number, and nodes that were built before are passed on as they are. Main
statements: without the numbers it is the machine that reads terms, and the nodes of a statement are
those that have been built since it began, each of them once.
-/
namespace Abacus

def Graph.sequence (fresh : Nat) : Graph → Graph → Graph × Nat
  | .empty, y => (y, fresh)
  | x, .empty => (x, fresh)
  | x, y => (.node (fresh, .glue) x y, fresh + 1)

namespace Parser.Allocation

inductive Frame where
  | unary (op : UnaryOp)
  | binary (op : BinaryOp) (left : Graph)
  | assign (left : Graph)
  | paren

def Frame.complete? (bound fresh : Nat) (operand : Graph) : Frame → Option Graph
  | .unary op => some (.node (fresh, .unary op) operand .empty)
  | .binary op left =>
      if bound ≤ level op then some (.node (fresh, .binary op) left operand) else none
  | .assign left => if bound = 0 then some (.node (fresh, .assign) left operand) else none
  | .paren => none

def complete (bound : Nat) : Nat → List Frame → Graph → Graph × List Frame × Nat
  | fresh, [], operand => (operand, [], fresh)
  | fresh, frame :: frames, operand =>
      match frame.complete? bound fresh operand with
      | some graph => complete bound (fresh + 1) frames graph
      | none => (operand, frame :: frames, fresh)

inductive Phase where
  | start
  | operand (frames : List Frame)
  | operator (frames : List Frame) (operand : Graph)

structure State where
  fresh : Nat
  blocks : List Graph := []
  phase : Phase := .start

inductive Step where
  | next (state : State)
  | accept (graph : Graph) (fresh : Nat)
  | reject (error : ParseError)

def endStatement (fresh : Nat) (graph : Graph) : List Graph → Step
  | [] => .accept graph fresh
  | block :: blocks =>
      let (joined, fresh) := block.sequence fresh graph
      .next ⟨fresh, joined :: blocks, .start⟩

def stepOperand (fresh : Nat) (blocks : List Graph) (frames : List Frame) (token : Token) : Step :=
  match token with
  | .symbol .openParen => .next ⟨fresh, blocks, .operand (.paren :: frames)⟩
  | .symbol .plus => .next ⟨fresh, blocks, .operand frames⟩
  | .symbol .minus => .next ⟨fresh, blocks, .operand (.unary .negate :: frames)⟩
  | .symbol .tilde => .next ⟨fresh, blocks, .operand (.unary .bitNot :: frames)⟩
  | .int _ text =>
      match Literal.integer text.toList with
      | .ok value => leaf (.number value)
      | .error cause => .reject (.badInteger cause)
  | .float _ text =>
      match Literal.float text.toList with
      | .ok value => leaf (.float value)
      | .error cause => .reject (.badFloat cause)
  | .name text => leaf (.ident text)
  | _ => .reject (.unexpected token)
where
  leaf (label : Label) : Step :=
    .next ⟨fresh + 1, blocks, .operator frames (.node (fresh, label) .empty .empty)⟩

def stepClose (fresh : Nat) (blocks : List Graph) (frames : List Frame) (operand : Graph)
    (token : Token) : Step :=
  match complete 0 fresh frames operand with
  | (graph, [], fresh) =>
      if token = .symbol .semicolon then endStatement fresh graph blocks
      else .reject (.expected .semicolon token)
  | (graph, _ :: outer, fresh) =>
      if token = .symbol .closeParen then .next ⟨fresh, blocks, .operator outer graph⟩
      else .reject (.expected .closeParen token)

def stepOperator (fresh : Nat) (blocks : List Graph) (frames : List Frame) (operand : Graph)
    (token : Token) : Step :=
  match token with
  | .symbol .equals =>
      let (left, frames, fresh) := complete 1 fresh frames operand
      .next ⟨fresh, blocks, .operand (.assign left :: frames)⟩
  | .symbol symbol =>
      match binaryOp? symbol with
      | some op =>
          let (left, frames, fresh) := complete (level op) fresh frames operand
          .next ⟨fresh, blocks, .operand (.binary op left :: frames)⟩
      | none => stepClose fresh blocks frames operand token
  | _ => stepClose fresh blocks frames operand token

def stepStart (fresh : Nat) (blocks : List Graph) (token : Token) : Step :=
  match token, blocks with
  | .symbol .openBrace, _ => .next ⟨fresh, .empty :: blocks, .start⟩
  | .symbol .semicolon, _ => endStatement fresh .empty blocks
  | .symbol .closeBrace, block :: outer => endStatement fresh block outer
  | _, _ => stepOperand fresh blocks [] token

def step (state : State) (token : Token) : Step :=
  match state.phase with
  | .start => stepStart state.fresh state.blocks token
  | .operand frames => stepOperand state.fresh state.blocks frames token
  | .operator frames operand => stepOperator state.fresh state.blocks frames operand token

section Forgetting

def Frame.forget : Frame → Parser.Frame
  | .unary op => .unary op
  | .binary op left => .binary op left.term
  | .assign left => .assign left.term
  | .paren => .paren

def Phase.forget : Phase → Parser.Phase
  | .start => .start
  | .operand frames => .operand (frames.map Frame.forget)
  | .operator frames x => .operator (frames.map Frame.forget) x.term

def State.forget (state : State) : Parser.State :=
  ⟨state.blocks.map Graph.term, state.phase.forget⟩

def Step.forget : Step → Parser.Step
  | .next state => .next state.forget
  | .accept graph _ => .accept graph.term
  | .reject error => .reject error

theorem term_sequence (fresh : Nat) (x y : Graph) :
    (x.sequence fresh y).1.term = x.term.sequence y.term := by
  cases x <;> cases y <;> rfl

theorem forget_complete? (bound fresh : Nat) (operand : Graph) (frame : Frame) :
    (frame.complete? bound fresh operand).map Graph.term =
      frame.forget.complete? bound operand.term := by
  cases frame with
  | unary op => rfl
  | binary op left =>
      simp only [Frame.complete?, Frame.forget, Parser.Frame.complete?]
      split <;> rfl
  | assign left =>
      simp only [Frame.complete?, Frame.forget, Parser.Frame.complete?]
      split <;> rfl
  | paren => rfl

theorem forget_complete (bound fresh : Nat) (frames : List Frame) (operand : Graph) :
    Parser.complete bound (frames.map Frame.forget) operand.term =
      ((complete bound fresh frames operand).1.term,
        (complete bound fresh frames operand).2.1.map Frame.forget) := by
  induction frames generalizing fresh operand with
  | nil => rfl
  | cons frame frames ih =>
      have same := forget_complete? bound fresh operand frame
      rw [List.map_cons, Parser.complete, ← same, complete]
      cases frame.complete? bound fresh operand with
      | none => rfl
      | some graph => exact ih (fresh + 1) graph

theorem forget_endStatement (fresh : Nat) (graph : Graph) (blocks : List Graph) :
    (endStatement fresh graph blocks).forget =
      Parser.endStatement graph.term (blocks.map Graph.term) := by
  cases blocks with
  | nil => rfl
  | cons block blocks =>
      simp only [endStatement, Step.forget, State.forget, List.map_cons, term_sequence,
        Parser.endStatement, Phase.forget]

theorem forget_stepOperand (fresh : Nat) (blocks : List Graph) (frames : List Frame)
    (token : Token) :
    (stepOperand fresh blocks frames token).forget =
      Parser.stepOperand (blocks.map Graph.term) (frames.map Frame.forget) token := by
  fun_cases stepOperand fresh blocks frames token with
  | case1 | case2 | case3 | case4 => rfl
  | case5 _ text outcome found | case6 _ text outcome found | case7 _ text outcome found
  | case8 _ text outcome found =>
      simp only [Parser.stepOperand, found]
      rfl
  | case9 => rfl
  | case10 =>
      rw [Parser.stepOperand]
      · rfl
      all_goals assumption

theorem forget_stepClose (fresh : Nat) (blocks : List Graph) (frames : List Frame)
    (operand : Graph) (token : Token) :
    (stepClose fresh blocks frames operand token).forget =
      Parser.stepClose (blocks.map Graph.term) (frames.map Frame.forget) operand.term token := by
  rw [Parser.stepClose, forget_complete 0 fresh, stepClose]
  rcases complete 0 fresh frames operand with ⟨graph, - | ⟨frame, outer⟩, after⟩
  · simp only [List.map_nil]
    split
    · exact forget_endStatement after graph blocks
    · rfl
  · simp only [List.map_cons]
    split <;> rfl

theorem forget_stepOperator (fresh : Nat) (blocks : List Graph) (frames : List Frame)
    (operand : Graph) (token : Token) :
    (stepOperator fresh blocks frames operand token).forget =
      Parser.stepOperator (blocks.map Graph.term) (frames.map Frame.forget) operand.term token := by
  fun_cases stepOperator fresh blocks frames operand token with
  | case1 left after fresh' completed =>
      simp only [Parser.stepOperator, forget_complete 1 fresh, completed]
      rfl
  | case2 symbol not_equals op found left after fresh' completed =>
      simp only [Parser.stepOperator, found, forget_complete (level op) fresh, completed]
      rfl
  | case3 symbol not_equals none =>
      simp only [Parser.stepOperator, none]
      exact forget_stepClose ..
  | case4 no_equals no_symbol =>
      rw [Parser.stepOperator]
      · exact forget_stepClose ..
      all_goals assumption

theorem forget_stepStart (fresh : Nat) (blocks : List Graph) (token : Token) :
    (stepStart fresh blocks token).forget =
      Parser.stepStart (blocks.map Graph.term) token := by
  fun_cases stepStart fresh blocks token with
  | case1 => rfl
  | case2 => exact forget_endStatement ..
  | case3 => exact forget_endStatement ..
  | case4 _ _ no_open no_semicolon no_close =>
      rw [Parser.stepStart]
      · exact forget_stepOperand fresh blocks [] token
      · exact no_open
      · exact no_semicolon
      · rintro block outer closes same
        obtain ⟨first, others, rfl, -, -⟩ := List.map_eq_cons_iff.mp same
        exact no_close first others closes rfl

theorem forget_step (state : State) (token : Token) :
    (step state token).forget = Parser.step state.forget token := by
  obtain ⟨fresh, blocks, phase⟩ := state
  cases phase with
  | start => exact forget_stepStart fresh blocks token
  | operand frames => exact forget_stepOperand fresh blocks frames token
  | operator frames x => exact forget_stepOperator fresh blocks frames x token

end Forgetting

end Parser.Allocation

def Graph.nodes (g : Graph) : Multiset Nat :=
  g.ids

@[simp] theorem Graph.nodes_empty : nodes .empty = 0 :=
  rfl

@[simp] theorem Graph.nodes_node (id : Nat) (label : Label) (left right : Graph) :
    nodes (.node (id, label) left right) = {id} + (left.nodes + right.nodes) := by
  simp only [nodes, ids_node, Multiset.singleton_add]
  rfl

namespace Parser.Allocation

/-- Between `before` and `after` the numbers from `fresh` up to `fresh'` are added. -/
def Adds (fresh : Nat) (before : Multiset Nat) (fresh' : Nat) (after : Multiset Nat) : Prop :=
  ∃ count, fresh' = fresh + count ∧ after = before + (List.range' fresh count : List Nat)

section Adds
variable {first second third : Nat} {before between after others : Multiset Nat}

theorem adds_none (same : after = before) : Adds first before first after :=
  ⟨0, rfl, by simp [same]⟩

theorem adds_one (one : after = {first} + before) : Adds first before (first + 1) after :=
  ⟨1, rfl, by simp [one, add_comm]⟩

theorem Adds.trans (adds : Adds first before second between)
    (more : Adds second between third after) : Adds first before third after := by
  obtain ⟨m, rfl, rfl⟩ := adds
  obtain ⟨n, rfl, rfl⟩ := more
  refine ⟨m + n, by omega, ?_⟩
  rw [← List.range'_append_1, ← Multiset.coe_add, add_assoc]

theorem Adds.add (adds : Adds first before second after) (others : Multiset Nat) :
    Adds first (before + others) second (after + others) := by
  obtain ⟨count, fresh_eq, rfl⟩ := adds
  exact ⟨count, fresh_eq, add_right_comm _ _ _⟩

end Adds

def Frame.nodes : Frame → Multiset Nat
  | .binary _ left | .assign left => left.nodes
  | .unary _ | .paren => 0

def framesNodes (frames : List Frame) : Multiset Nat :=
  (frames.map Frame.nodes).sum

@[simp] theorem framesNodes_nil : framesNodes [] = 0 :=
  rfl

@[simp] theorem framesNodes_cons (frame : Frame) (frames : List Frame) :
    framesNodes (frame :: frames) = frame.nodes + framesNodes frames := by
  simp [framesNodes]

def Phase.nodes : Phase → Multiset Nat
  | .start => 0
  | .operand frames => framesNodes frames
  | .operator frames x => x.nodes + framesNodes frames

def State.nodes (state : State) : Multiset Nat :=
  state.phase.nodes + (state.blocks.map Graph.nodes).sum

theorem adds_sequence (fresh : Nat) (x y : Graph) :
    Adds fresh (x.nodes + y.nodes) (x.sequence fresh y).2 (x.sequence fresh y).1.nodes := by
  cases x with
  | empty => exact adds_none (zero_add _).symm
  | node root left right =>
      cases y with
      | empty => exact adds_none (add_zero _).symm
      | node root' left' right' => exact adds_one (Graph.nodes_node ..)

theorem nodes_complete? (bound fresh : Nat) (operand graph : Graph) (frame : Frame)
    (completed : frame.complete? bound fresh operand = some graph) :
    graph.nodes = {fresh} + (frame.nodes + operand.nodes) := by
  cases frame with
  | unary op =>
      obtain rfl := Option.some.inj completed
      rw [Graph.nodes_node, Graph.nodes_empty, Frame.nodes, add_comm operand.nodes]
  | binary op left =>
      obtain ⟨-, built⟩ := Option.ite_none_right_eq_some.mp completed
      obtain rfl := Option.some.inj built
      rw [Graph.nodes_node, Frame.nodes]
  | assign left =>
      obtain ⟨-, built⟩ := Option.ite_none_right_eq_some.mp completed
      obtain rfl := Option.some.inj built
      rw [Graph.nodes_node, Frame.nodes]
  | paren => cases completed

theorem adds_complete (bound fresh : Nat) (frames : List Frame) (operand : Graph) :
    Adds fresh (operand.nodes + framesNodes frames) (complete bound fresh frames operand).2.2
      ((complete bound fresh frames operand).1.nodes +
        framesNodes (complete bound fresh frames operand).2.1) := by
  induction frames generalizing fresh operand with
  | nil => exact adds_none rfl
  | cons frame frames ih =>
      rw [complete]
      cases completed : frame.complete? bound fresh operand with
      | none => exact adds_none rfl
      | some graph =>
          refine (adds_one ?_).trans (ih (fresh + 1) graph)
          rw [nodes_complete? bound fresh operand graph frame completed, framesNodes_cons]
          abel

def Step.Accounts (fresh : Nat) (before : Multiset Nat) : Step → Prop
  | .next state => Adds fresh before state.fresh state.nodes
  | .accept graph fresh' => Adds fresh before fresh' graph.nodes
  | .reject _ => True

theorem Step.Accounts.trans {first second : Nat} {before between : Multiset Nat} {step : Step}
    (adds : Adds first before second between) (accounts : step.Accounts second between) :
    step.Accounts first before := by
  cases step with
  | next state => exact Adds.trans adds accounts
  | accept graph fresh => exact Adds.trans adds accounts
  | reject error => trivial

theorem accounts_endStatement (fresh : Nat) (graph : Graph) (blocks : List Graph) :
    (endStatement fresh graph blocks).Accounts fresh
      (graph.nodes + (blocks.map Graph.nodes).sum) := by
  cases blocks with
  | nil => exact adds_none (add_zero _).symm
  | cons block blocks =>
      have joined := (adds_sequence fresh block graph).add (blocks.map Graph.nodes).sum
      rw [add_right_comm, add_comm] at joined
      simpa [endStatement, Step.Accounts, State.nodes, Phase.nodes] using joined

theorem accounts_stepOperand (fresh : Nat) (blocks : List Graph) (frames : List Frame)
    (token : Token) :
    (stepOperand fresh blocks frames token).Accounts fresh
      (State.nodes ⟨fresh, blocks, .operand frames⟩) := by
  have leaf (label : Label) :
      (stepOperand.leaf fresh blocks frames label).Accounts fresh
        (State.nodes ⟨fresh, blocks, .operand frames⟩) := by
    refine adds_one ?_
    simp only [State.nodes, Phase.nodes, Graph.nodes_node, Graph.nodes_empty, add_zero, add_assoc]
  fun_cases stepOperand fresh blocks frames token with
  | case1 | case2 | case3 | case4 =>
      refine adds_none ?_
      simp [State.nodes, Phase.nodes, Frame.nodes]
  | case5 | case7 | case9 => exact leaf _
  | case6 | case8 | case10 => trivial

theorem nodes_of_complete_zero (fresh after : Nat) (frames outer : List Frame) (frame : Frame)
    (operand graph : Graph)
    (completed : complete 0 fresh frames operand = (graph, frame :: outer, after)) :
    frame.nodes = 0 := by
  induction frames generalizing fresh operand with
  | nil => simp [complete] at completed
  | cons first frames ih =>
      rw [complete] at completed
      cases first with
      | paren =>
          simp only [Frame.complete?, Prod.mk.injEq, List.cons.injEq] at completed
          rw [← completed.2.1.1]
          rfl
      | unary op => exact ih _ _ completed
      | binary op left => exact ih _ _ completed
      | assign left => exact ih _ _ completed

theorem accounts_stepClose (fresh : Nat) (blocks : List Graph) (frames : List Frame)
    (operand : Graph) (token : Token) :
    (stepClose fresh blocks frames operand token).Accounts fresh
      (State.nodes ⟨fresh, blocks, .operator frames operand⟩) := by
  have completes := (adds_complete 0 fresh frames operand).add (blocks.map Graph.nodes).sum
  rw [stepClose]
  rcases completed : complete 0 fresh frames operand with ⟨graph, - | ⟨frame, outer⟩, after⟩
  · rw [completed, framesNodes_nil, add_zero] at completes
    dsimp only
    split
    · exact (accounts_endStatement after graph blocks).trans completes
    · trivial
  · have closing := nodes_of_complete_zero fresh after frames outer frame operand graph completed
    rw [completed, framesNodes_cons, closing, zero_add] at completes
    dsimp only
    split
    · exact completes
    · trivial

theorem accounts_stepOperator (fresh : Nat) (blocks : List Graph) (frames : List Frame)
    (operand : Graph) (token : Token) :
    (stepOperator fresh blocks frames operand token).Accounts fresh
      (State.nodes ⟨fresh, blocks, .operator frames operand⟩) := by
  have completes (bound : Nat) :=
    (adds_complete bound fresh frames operand).add (blocks.map Graph.nodes).sum
  fun_cases stepOperator fresh blocks frames operand token with
  | case1 left after fresh' completed =>
      have adds := completes 1
      rw [completed] at adds
      simpa [Step.Accounts, State.nodes, Phase.nodes, Frame.nodes] using adds
  | case2 symbol not_equals op found left after fresh' completed =>
      have adds := completes (level op)
      rw [completed] at adds
      simpa [Step.Accounts, State.nodes, Phase.nodes, Frame.nodes] using adds
  | case3 => exact accounts_stepClose ..
  | case4 => exact accounts_stepClose ..

theorem accounts_step (state : State) (token : Token) :
    (step state token).Accounts state.fresh state.nodes := by
  obtain ⟨fresh, blocks, phase⟩ := state
  cases phase with
  | operand frames => exact accounts_stepOperand fresh blocks frames token
  | operator frames x => exact accounts_stepOperator fresh blocks frames x token
  | start =>
      show (stepStart fresh blocks token).Accounts fresh _
      fun_cases stepStart fresh blocks token with
      | case1 => exact adds_none (by simp [State.nodes, Phase.nodes])
      | case2 => exact accounts_endStatement fresh .empty blocks
      | case3 block outer =>
          simpa [State.nodes, Phase.nodes] using accounts_endStatement fresh block outer
      | case4 => exact accounts_stepOperand fresh blocks [] token

inductive Reply where
  | endOfInput
  | statement (graph : Graph)
  | error (error : ParseError)
  deriving DecidableEq

def Reply.forget : Reply → Parser.Reply
  | .endOfInput => .endOfInput
  | .statement graph => .statement graph.term
  | .error e => .error e

def replyAtEnd (ending : Ending) (state : State) : Reply :=
  match ending with
  | .failed reason => .error (.lexical (.readFailure reason))
  | .finished =>
      match endError? state.forget with
      | none => .endOfInput
      | some error => .error error

/-- Also a request that fails has taken the numbers of the nodes that it built. -/
def run (ending : Ending) (state : State) : List Item → Reply × Nat × List Item
  | [] => (replyAtEnd ending state, state.fresh, [])
  | .error cause :: items => (.error (.lexical cause), state.fresh, items)
  | .ok token :: items =>
      match step state token with
      | .next state => run ending state items
      | .accept graph fresh => (.statement graph, fresh, items)
      | .reject error =>
          (.error error, state.fresh, if error.keepsToken then .ok token :: items else items)

theorem forget_run (ending : Ending) (state : State) (items : List Item) :
    Parser.run ending state.forget items =
      ((run ending state items).1.forget, (run ending state items).2.2) := by
  induction items generalizing state with
  | nil =>
      simp only [run, Parser.run, replyAtEnd, Parser.replyAtEnd]
      cases ending with
      | failed reason => rfl
      | finished => cases endError? state.forget <;> rfl
  | cons item items ih =>
      cases item with
      | error cause => rfl
      | ok token =>
          rw [Parser.run, ← forget_step, run]
          cases step state token with
          | next state => exact ih state
          | accept graph fresh => rfl
          | reject error => rfl

/-- A statement holds all nodes that have been built since the machine started, each once. -/
theorem adds_run (ending : Ending) (state : State) (items : List Item) :
    ∃ built, Adds state.fresh state.nodes (run ending state items).2.1 built ∧
      ∀ graph, (run ending state items).1 = .statement graph → graph.nodes = built := by
  induction items generalizing state with
  | nil =>
      refine ⟨state.nodes, adds_none rfl, fun graph replied => ?_⟩
      simp only [run, replyAtEnd] at replied
      cases ending with
      | failed reason => cases replied
      | finished => cases ended : endError? state.forget <;> simp [ended] at replied
  | cons item items ih =>
      cases item with
      | error cause => exact ⟨state.nodes, adds_none rfl, fun graph replied => by cases replied⟩
      | ok token =>
          have accounts := accounts_step state token
          rw [run]
          cases stepped : step state token with
          | next after =>
              rw [stepped] at accounts
              obtain ⟨built, more, same⟩ := ih after
              exact ⟨built, Adds.trans accounts more, same⟩
          | accept accepted fresh =>
              rw [stepped] at accounts
              refine ⟨accepted.nodes, accounts, fun graph replied => ?_⟩
              rw [Reply.statement.inj replied]
          | reject error =>
              exact ⟨state.nodes, adds_none rfl, fun graph replied => by cases replied⟩

end Parser.Allocation

structure NodeStream where
  fresh : Nat := 0
  stream : TokenStream

namespace NodeStream
open Parser.Allocation

def statement (nodes : NodeStream) : Reply × NodeStream :=
  let (reply, fresh, items) := run nodes.stream.ending { fresh := nodes.fresh } nodes.stream.items
  (reply, ⟨fresh, { nodes.stream with items := items }⟩)

def after (nodes : NodeStream) : Nat → NodeStream
  | 0 => nodes
  | count + 1 => (nodes.after count).statement.2

theorem forget_statement (nodes : NodeStream) :
    nodes.stream.statement = (nodes.statement.1.forget, nodes.statement.2.stream) := by
  have same := forget_run nodes.stream.ending { fresh := nodes.fresh } nodes.stream.items
  rw [TokenStream.statement_eq]
  exact congrArg (fun result => (result.1, TokenStream.mk result.2 nodes.stream.ending)) same

theorem stream_after (nodes : NodeStream) (count : Nat) :
    (nodes.after count).stream = nodes.stream.after count := by
  induction count with
  | zero => rfl
  | succ count ih => rw [after, TokenStream.after, ← ih, forget_statement]

theorem forget_statement_after (nodes : NodeStream) (count : Nat) :
    (nodes.after count).statement.1.forget = (nodes.stream.after count).statement.1 := by
  rw [← stream_after, forget_statement]

theorem adds_statement (nodes : NodeStream) :
    ∃ count, nodes.statement.2.fresh = nodes.fresh + count ∧
      ∀ graph, nodes.statement.1 = .statement graph →
        graph.ids.Perm (List.range' nodes.fresh count) := by
  obtain ⟨built, ⟨count, fresh_eq, rfl⟩, same⟩ :=
    adds_run nodes.stream.ending { fresh := nodes.fresh } nodes.stream.items
  refine ⟨count, fresh_eq, fun graph replied => Multiset.coe_eq_coe.mp ?_⟩
  exact (same graph replied).trans (zero_add _)

theorem fresh_le_after (nodes : NodeStream) (first second : Nat) (le : first ≤ second) :
    (nodes.after first).fresh ≤ (nodes.after second).fresh := by
  induction second, le using Nat.le_induction with
  | base => exact Nat.le_refl _
  | succ second _ ih =>
      obtain ⟨count, fresh_eq, -⟩ := (nodes.after second).adds_statement
      exact ih.trans (fresh_eq.symm ▸ Nat.le_add_right _ _)

section Replied
variable (nodes : NodeStream) (count : Nat) (graph : Graph)
  (replied : (nodes.after count).statement.1 = .statement graph)
include replied

theorem nodup_of_replied : graph.ids.Nodup := by
  obtain ⟨_, -, perm⟩ := (nodes.after count).adds_statement
  exact (perm graph replied).nodup_iff.mpr List.nodup_range'

theorem mem_ids_of_replied (id : Nat) (member : id ∈ graph.ids) :
    (nodes.after count).fresh ≤ id ∧ id < (nodes.after (count + 1)).fresh := by
  obtain ⟨built, fresh_eq, perm⟩ := (nodes.after count).adds_statement
  have range := List.mem_range'_1.mp ((perm graph replied).mem_iff.mp member)
  rw [after, fresh_eq]
  exact range

theorem not_mem_ids_of_replied (earlier : Nat) (before : earlier < count) (other : Graph)
    (gave : (nodes.after earlier).statement.1 = .statement other) :
    ∀ id ∈ other.ids, id ∉ graph.ids := by
  intro id member again
  have old := (nodes.mem_ids_of_replied earlier other gave id member).2
  have new := (nodes.mem_ids_of_replied count graph replied id again).1
  have grown := nodes.fresh_le_after (earlier + 1) count before
  omega

end Replied
end NodeStream

def Source.nodes (source : Source) : NodeStream :=
  { stream := source.stream }

end Abacus
