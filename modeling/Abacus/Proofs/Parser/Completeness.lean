import Abacus.Proofs.Grammar

/-!
The machine accepts what the grammar derives, and builds the term of the derivation.

Operators that have been read whole may still wait on the stack when a phrase ends. So what is
shown of a phrase is that completing the stack after it is the same as completing the stack before
it with the term of the phrase as operand.
-/
namespace Abacus.Parser
open Grammar

theorem level_eq_rank (c : Category) (s : Symbol) (op : BinaryOp)
    (member : (s, op) ∈ c.operators) : level op = c.rank := by
  cases c <;> simp_all [Category.operators, Category.rank] <;> grind [level]

theorem binaryOp?_of_mem_operators (c : Category) (s : Symbol) (op : BinaryOp)
    (member : (s, op) ∈ c.operators) : binaryOp? s = some op := by
  cases c <;> simp_all [Category.operators] <;> grind [binaryOp?]

theorem exists_mem_operators_of_binaryOp? (s : Symbol) (op : BinaryOp)
    (found : binaryOp? s = some op) : ∃ c : Category, (s, op) ∈ c.operators := by
  cases op with
  | bitOr => exact ⟨.bitOr, by cases s <;> simp_all [binaryOp?, Category.operators]⟩
  | bitXor => exact ⟨.bitXor, by cases s <;> simp_all [binaryOp?, Category.operators]⟩
  | bitAnd => exact ⟨.bitAnd, by cases s <;> simp_all [binaryOp?, Category.operators]⟩
  | shl | shr => exact ⟨.shift, by cases s <;> simp_all [binaryOp?, Category.operators]⟩
  | add | sub => exact ⟨.additive, by cases s <;> simp_all [binaryOp?, Category.operators]⟩
  | mul | div | mod =>
      exact ⟨.multiplicative, by cases s <;> simp_all [binaryOp?, Category.operators]⟩

inductive Steps : State → List Token → State → Prop where
  | refl (state : State) : Steps state [] state
  | head {state next final : State} {t : Token} {ts : List Token}
      (first : step state t = .next next) (rest : Steps next ts final) : Steps state (t :: ts) final

namespace Steps

theorem single {state next : State} {t : Token} (only : step state t = .next next) :
    Steps state [t] next :=
  .head only (.refl next)

theorem trans {state middle final : State} {ts us : List Token} (first : Steps state ts middle)
    (second : Steps middle us final) : Steps state (ts ++ us) final := by
  induction first with
  | refl => exact second
  | head step_eq _ ih => exact .head step_eq (ih second)

theorem read_eq {state final : State} {ts : List Token} (steps : Steps state ts final)
    (ending : Ending) (items : List Item) :
    Script.read ending state (ts.map .ok ++ items) = Script.read ending final items := by
  induction steps with
  | refl => rfl
  | head first _ ih => simp only [List.map_cons, List.cons_append, Script.read, first, ih]

end Steps

theorem eq_initial_of_endError?_eq_none (state : State) (quiet : endError? state = none) :
    state = .initial := by
  obtain ⟨blocks, phase⟩ := state
  cases phase with
  | start => cases blocks <;> simp_all [endError?, State.initial]
  | operand => simp [endError?] at quiet
  | operator frames operand =>
      simp only [endError?] at quiet
      split at quiet <;> simp at quiet

theorem eq_initial_of_read_nil (state : State)
    (complete : (Script.read .finished state []).error = none) : state = .initial := by
  apply eq_initial_of_endError?_eq_none
  simp only [Script.read, replyAtEnd] at complete
  split at complete
  · assumption
  · simp [Script.ofReply] at complete

def Rests (bound : Nat) : List Frame → Prop
  | [] => True
  | frame :: _ => ∀ operand, frame.complete? bound operand = none

theorem complete_of_rests (bound : Nat) (frames : List Frame) (operand : Term)
    (rests : Rests bound frames) : complete bound frames operand = (operand, frames) := by
  cases frames with
  | nil => rfl
  | cons frame frames => rw [complete, rests operand]

theorem Rests.mono (m n : Nat) (frames : List Frame) (bound : m ≤ n) (rests : Rests m frames) :
    Rests n frames := by
  cases frames with
  | nil => trivial
  | cons frame frames =>
      intro operand
      have := rests operand
      cases frame <;> simp_all [Frame.complete?] <;> omega

/-- The stack on which a phrase of a category can be read: its operators complete nothing there.
Signs and primaries complete nothing on any stack. -/
def Ready (c : Category) (frames : List Frame) : Prop :=
  c.rank ≤ 6 → Rests (max c.rank 1) frames

theorem Ready.tighter (c : Category) (frames : List Frame) (compound : c ≠ .primary)
    (ready : Ready c frames) : Ready c.tighter frames := by
  intro low
  rw [Category.rank_tighter c compound] at low ⊢
  exact .mono _ _ frames (by omega) (ready (by omega))

def Leads (c : Category) (tokens : List Token) (term : Term) : Prop :=
  ∀ (blocks : List Term) (frames : List Frame), Ready c frames →
    ∃ above operand, Steps ⟨blocks, .operand frames⟩ tokens ⟨blocks, .operator above operand⟩ ∧
      ∀ bound ≤ c.rank, complete bound above operand = complete bound frames term

theorem stepOperator_operator (blocks : List Term) (frames rest : List Frame)
    (operand left : Term) (c : Category) (s : Symbol) (op : BinaryOp)
    (member : (s, op) ∈ c.operators)
    (completed : complete c.rank frames operand = (left, rest)) :
    stepOperator blocks frames operand (.symbol s) =
      .next ⟨blocks, .operand (.binary op left :: rest)⟩ := by
  have found := binaryOp?_of_mem_operators c s op member
  have not_equals : s ≠ .equals := by
    rintro rfl
    simp [binaryOp?] at found
  rw [← level_eq_rank c s op member] at completed
  cases s <;> simp_all [stepOperator]

theorem leads_paren (tokens : List Token) (term : Term) (inner : Leads .assignment tokens term) :
    Leads .primary (.symbol .openParen :: (tokens ++ [.symbol .closeParen])) term := by
  intro blocks frames _
  obtain ⟨above, operand, steps, completes⟩ := inner blocks (.paren :: frames) fun _ _ => rfl
  have closing : complete 0 above operand = (term, .paren :: frames) :=
    (completes 0 (Nat.zero_le _)).trans rfl
  refine ⟨frames, term, .head rfl (steps.trans (.single ?_)), fun _ _ => rfl⟩
  simp [step, stepOperator, binaryOp?, stepClose, closing]

theorem leads_sign (op : UnaryOp) (tokens : List Token) (term : Term)
    (operand : Leads .unary tokens term) :
    Leads .unary (.symbol (signSymbol op) :: tokens) (.unary op term) := by
  intro blocks frames _
  have ready : Ready .unary (.unary op :: frames) := fun low => absurd low (by decide)
  obtain ⟨above, last, steps, completes⟩ := operand blocks (.unary op :: frames) ready
  exact ⟨above, last, .head (by cases op <;> rfl) steps, completes⟩

theorem leads_binary (c : Category) (s : Symbol) (op : BinaryOp) (member : (s, op) ∈ c.operators)
    (tokens others : List Token) (left right : Term) (first : Leads c tokens left)
    (second : Leads c.tighter others right) :
    Leads c (tokens ++ .symbol s :: others) (.binary op left right) := by
  intro blocks frames ready
  have level_eq := level_eq_rank c s op member
  have levels := Category.rank_of_mem_operators c s op member
  have compound := Category.ne_primary_of_mem_operators c s op member
  obtain ⟨above, operand, steps, completes⟩ := first blocks frames ready
  have completed : complete c.rank above operand = (left, frames) := by
    have rests := ready levels.2
    rw [Nat.max_eq_left levels.1] at rests
    rw [completes _ (Nat.le_refl _), complete_of_rests _ _ _ rests]
  have waiting : Ready c.tighter (.binary op left :: frames) := by
    intro _ operand
    have := Category.rank_tighter c compound
    simp only [Frame.complete?]
    rw [if_neg (by omega)]
  obtain ⟨above', operand', steps', completes'⟩ := second blocks (.binary op left :: frames) waiting
  have middle := stepOperator_operator blocks above frames operand left c s op member completed
  refine ⟨above', operand', steps.trans (.head middle steps'), ?_⟩
  intro bound low
  have := Category.rank_tighter c compound
  rw [completes' bound (by omega), complete, Frame.complete?, if_pos (by omega)]

theorem leads_assign (tokens others : List Token) (left right : Term)
    (first : Leads .bitOr tokens left) (second : Leads .assignment others right) :
    Leads .assignment (tokens ++ .symbol .equals :: others) (.assign left right) := by
  intro blocks frames ready
  obtain ⟨above, operand, steps, completes⟩ :=
    first blocks frames (ready.tighter .assignment frames (by decide))
  have completed : complete 1 above operand = (left, frames) := by
    rw [completes 1 (Nat.le_refl _), complete_of_rests 1 frames left (ready (by decide))]
  obtain ⟨above', operand', steps', completes'⟩ :=
    second blocks (.assign left :: frames) fun _ _ => rfl
  refine ⟨above', operand', steps.trans (.head ?_ steps'), ?_⟩
  · simp [step, stepOperator, completed]
  · intro bound low
    obtain rfl : bound = 0 := by simpa [Category.rank] using low
    rw [completes' 0 (Nat.le_refl _), complete, Frame.complete?, if_pos rfl]

theorem leads_phrase {c : Category} (x : Phrase c) : Leads c x.tokens x.term := by
  induction x with
  | integer value text number valid =>
      intro blocks frames _
      refine ⟨frames, _, .single ?_, fun _ _ => rfl⟩
      simp [step, stepOperand, valid, Phrase.term]
  | float value text number valid =>
      intro blocks frames _
      refine ⟨frames, _, .single ?_, fun _ _ => rfl⟩
      simp [step, stepOperand, valid, Phrase.term]
  | name text =>
      intro blocks frames _
      exact ⟨frames, _, .single rfl, fun _ _ => rfl⟩
  | paren _ ih => exact leads_paren _ _ ih
  | plus _ ih =>
      intro blocks frames ready
      obtain ⟨above, operand, steps, completes⟩ := ih blocks frames ready
      exact ⟨above, operand, .head rfl steps, completes⟩
  | sign op _ ih => exact leads_sign op _ _ ih
  | binary s op member _ _ ih_left ih_right =>
      exact leads_binary _ s op member _ _ _ _ ih_left ih_right
  | assign _ _ ih_left ih_right => exact leads_assign _ _ _ _ ih_left ih_right
  | lone compound _ ih =>
      intro blocks frames ready
      obtain ⟨above, operand, steps, completes⟩ :=
        ih blocks frames (ready.tighter _ frames compound)
      have := Category.rank_tighter _ compound
      exact ⟨above, operand, steps, fun bound low => completes bound (by omega)⟩

def Finishes (tokens : List Token) (term : Term) : Prop :=
  ∀ blocks, ∃ front last state, tokens = front ++ [last] ∧
    Steps ⟨blocks, .start⟩ front state ∧ step state last = endStatement term blocks

theorem step_start_of_startsPhrase (blocks : List Term) (t : Token)
    (starts : startsPhrase t = true) :
    step ⟨blocks, .start⟩ t = step ⟨blocks, .operand []⟩ t := by
  simp only [step]
  cases t with
  | symbol s => cases s <;> simp_all [startsPhrase, stepStart]
  | _ => simp [stepStart]

theorem finishes_expression (x : Phrase .assignment) :
    Finishes (x.tokens ++ [.symbol .semicolon]) x.term := by
  intro blocks
  obtain ⟨above, operand, steps, completes⟩ := leads_phrase x blocks [] fun _ => trivial
  have closing : complete 0 above operand = (x.term, []) :=
    (completes 0 (Nat.le_refl _)).trans rfl
  obtain ⟨first, rest, tokens_eq, starts⟩ := x.exists_tokens_eq_cons
  refine ⟨x.tokens, .symbol .semicolon, ⟨blocks, .operator above operand⟩, rfl, ?_, ?_⟩
  · rw [tokens_eq] at steps ⊢
    cases steps with
    | head first_eq rest =>
        exact .head ((step_start_of_startsPhrase blocks first starts).trans first_eq) rest
  · simp [step, stepOperator, binaryOp?, stepClose, closing]

theorem foldl_sequence_node (label : Label) (left right : Term) (terms : List Term) :
    terms.foldl Term.sequence (.node label left right) =
      (terms.filter (!·.isEmpty)).foldl (.node .glue) (.node label left right) := by
  induction terms generalizing label left right with
  | nil => rfl
  | cons term terms ih =>
      cases term with
      | empty => exact ih label left right
      | node label' left' right' => exact ih .glue _ _

theorem foldl_sequence_empty (terms : List Term) :
    terms.foldl Term.sequence .empty = joined terms := by
  induction terms with
  | nil => rfl
  | cons term terms ih =>
      cases term with
      | empty => exact ih
      | node label left right => exact foldl_sequence_node label left right terms

mutual

theorem finishes_statement (statement : Statement) :
    Finishes statement.tokens statement.term := by
  match statement with
  | .empty => exact fun blocks => ⟨[], .symbol .semicolon, _, rfl, .refl _, rfl⟩
  | .expression x => exact finishes_expression x
  | .block body =>
      intro blocks
      refine ⟨.symbol .openBrace :: Statement.tokensOfAll body, .symbol .closeBrace, _, rfl,
        .head rfl (steps_body body .empty blocks), ?_⟩
      rw [foldl_sequence_empty]
      rfl

theorem steps_body (body : List Statement) (block : Term) (outer : List Term) :
    Steps ⟨block :: outer, .start⟩ (Statement.tokensOfAll body)
      ⟨(Statement.termsOfAll body).foldl Term.sequence block :: outer, .start⟩ := by
  match body with
  | [] => exact .refl _
  | first :: rest =>
      obtain ⟨front, last, state, tokens_eq, steps, finish⟩ :=
        finishes_statement first (block :: outer)
      simp only [Statement.tokensOfAll, Statement.termsOfAll, tokens_eq]
      exact (steps.trans (.single finish)).trans
        (steps_body rest (block.sequence first.term) outer)

end

theorem read_statement (statement : Statement) (ending : Ending) (items : List Item) :
    Script.read ending .initial (statement.tokens.map .ok ++ items) =
      { Script.read ending .initial items with
        statements := statement.term :: (Script.read ending .initial items).statements } := by
  obtain ⟨front, last, state, tokens_eq, steps, finish⟩ := finishes_statement statement []
  rw [tokens_eq, List.map_append, List.append_assoc, State.initial, steps.read_eq ending]
  simp only [List.map_cons, List.map_nil, List.cons_append, List.nil_append, Script.read, finish,
    endStatement]
  rfl

theorem read_program (program : Program) :
    Script.read .finished .initial (program.tokens.map .ok) = ⟨program.terms, none⟩ := by
  induction program with
  | nil => rfl
  | cons first rest ih =>
      simp only [Program.tokens, Program.terms, Statement.tokensOfAll, Statement.termsOfAll,
        List.map_append, read_statement] at *
      rw [ih]

end Abacus.Parser
