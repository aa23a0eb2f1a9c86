import Abacus.Proofs.Parser.Completeness

/-!
The machine accepts only what the grammar derives.

The invariant describes a state by the tokens that lead to it: each frame on the stack stands for a
rule of the grammar that has been begun, each open block for the statements read in it. A step
keeps the invariant, and where it ends a statement the tokens read since its start derive it.
-/
namespace Abacus.Parser
open Grammar

/-- Reading the tokens opens the frames, and a phrase of the category may come next. Plus signs are
tokens that leave no frame. -/
inductive Opened : Category → List Frame → List Token → Prop where
  | bottom : Opened .assignment [] []
  | paren {c : Category} {frames : List Frame} {ts : List Token} (outer : Opened c frames ts) :
      Opened .assignment (.paren :: frames) (ts ++ [.symbol .openParen])
  | assign {frames : List Frame} {ts : List Token} (outer : Opened .assignment frames ts)
      (left : Phrase .bitOr) :
      Opened .assignment (.assign left.term :: frames) (ts ++ left.tokens ++ [.symbol .equals])
  | binary {c d : Category} {frames : List Frame} {ts : List Token} (outer : Opened c frames ts)
      (looser : c.rank ≤ d.rank) (s : Symbol) (op : BinaryOp) (member : (s, op) ∈ d.operators)
      (left : Phrase d) :
      Opened d.tighter (.binary op left.term :: frames) (ts ++ left.tokens ++ [.symbol s])
  | sign {c : Category} {frames : List Frame} {ts : List Token} (outer : Opened c frames ts)
      (op : UnaryOp) : Opened .unary (.unary op :: frames) (ts ++ [.symbol (signSymbol op)])
  | plus {c : Category} {frames : List Frame} {ts : List Token} (outer : Opened c frames ts) :
      Opened .unary frames (ts ++ [.symbol .plus])

theorem Opened.rank_le {c : Category} {frames : List Frame} {ts : List Token}
    (opened : Opened c frames ts) : c.rank ≤ 7 := by
  cases opened with
  | binary _ _ s op member =>
      have := Category.rank_of_mem_operators _ s op member
      rw [Category.rank_tighter _ (Category.ne_primary_of_mem_operators _ s op member)]
      omega
  | _ => simp [Category.rank]

def Holds (frames : List Frame) (operand : Term) (ts : List Token) (bound : Nat) : Prop :=
  ∃ (c d : Category) (us : List Token) (x : Phrase d), Opened c frames us ∧ x.term = operand ∧
    us ++ x.tokens = ts ∧ bound ≤ d.rank ∧ (c = .assignment ∨ 2 ≤ c.rank ∧ c.rank ≤ bound)

/-- Completing operators gives a phrase of level `bound` from the same tokens, and leaves frames
that wait for one. -/
theorem holds_complete (bound : Nat) (low : bound ≤ 6) {c : Category} {frames : List Frame}
    {us : List Token} (opened : Opened c frames us) (d : Category) (x : Phrase d)
    (fits : c.rank ≤ d.rank) (reaches : bound ≤ d.rank) :
    Holds (complete bound frames x.term).2 (complete bound frames x.term).1 (us ++ x.tokens)
      bound := by
  induction opened generalizing d with
  | bottom => exact ⟨.assignment, d, [], x, .bottom, rfl, rfl, reaches, .inl rfl⟩
  | paren outer => exact ⟨.assignment, d, _, x, outer.paren, rfl, rfl, reaches, .inl rfl⟩
  | assign outer left ih =>
      by_cases zero : bound = 0
      · obtain ⟨y, tokens_eq, term_eq⟩ := Phrase.exists_looser .assignment d fits x
        have := ih .assignment (.assign left y) (Nat.le_refl _) (by omega)
        rw [complete, Frame.complete?, if_pos zero]
        simpa [Phrase.term, Phrase.tokens, term_eq, tokens_eq] using this
      · rw [complete, Frame.complete?, if_neg zero]
        exact ⟨.assignment, d, _, x, outer.assign left, rfl, rfl, reaches, .inl rfl⟩
  | @binary _ e _ _ outer looser s op member left ih =>
      have level_eq := level_eq_rank e s op member
      have levels := Category.rank_of_mem_operators e s op member
      have next := Category.rank_tighter e (Category.ne_primary_of_mem_operators e s op member)
      by_cases binds : bound ≤ level op
      · obtain ⟨y, tokens_eq, term_eq⟩ := Phrase.exists_looser e.tighter d fits x
        have := ih e (.binary s op member left y) looser (by omega)
        rw [complete, Frame.complete?, if_pos binds]
        simpa [Phrase.term, Phrase.tokens, term_eq, tokens_eq] using this
      · rw [complete, Frame.complete?, if_neg binds]
        exact ⟨e.tighter, d, _, x, outer.binary looser s op member left, rfl, rfl, reaches,
          .inr (by omega)⟩
  | sign outer op ih =>
      obtain ⟨y, tokens_eq, term_eq⟩ := Phrase.exists_looser .unary d fits x
      have := ih .unary (.sign op y) outer.rank_le (by simp only [Category.rank]; omega)
      simpa [complete, Frame.complete?, Phrase.term, Phrase.tokens, term_eq, tokens_eq] using this
  | plus outer ih =>
      obtain ⟨y, tokens_eq, term_eq⟩ := Phrase.exists_looser .unary d fits x
      have := ih .unary (.plus y) outer.rank_le (by simp only [Category.rank]; omega)
      simpa [Phrase.term, Phrase.tokens, term_eq, tokens_eq] using this

theorem complete?_eq_none_of_complete (bound : Nat) (frames : List Frame) (operand term : Term)
    (frame : Frame) (outer : List Frame)
    (completed : complete bound frames operand = (term, frame :: outer)) :
    frame.complete? bound term = none := by
  induction frames generalizing operand with
  | nil => simp [complete] at completed
  | cons first frames ih =>
      simp only [complete] at completed
      split at completed
      · exact ih _ completed
      · rename_i waits
        simp only [Prod.mk.injEq, List.cons.injEq] at completed
        obtain ⟨rfl, rfl, rfl⟩ := completed
        exact waits

section Blocks

/-- The tokens from the outermost open block on, the innermost block being the first of `bodies`. -/
def blockTokens : List (List Statement) → List Token
  | [] => []
  | body :: outer => blockTokens outer ++ .symbol .openBrace :: Statement.tokensOfAll body

def blockTerms (bodies : List (List Statement)) : List Term :=
  bodies.map fun body => joined (Statement.termsOfAll body)

theorem tokensOfAll_append (front back : List Statement) :
    Statement.tokensOfAll (front ++ back) =
      Statement.tokensOfAll front ++ Statement.tokensOfAll back := by
  induction front with
  | nil => rfl
  | cons first front ih => simp [Statement.tokensOfAll, ih]

theorem termsOfAll_append (front back : List Statement) :
    Statement.termsOfAll (front ++ back) =
      Statement.termsOfAll front ++ Statement.termsOfAll back := by
  induction front with
  | nil => rfl
  | cons first front ih => simp [Statement.termsOfAll, ih]

theorem sequence_joined (body : List Statement) (statement : Statement) :
    (joined (Statement.termsOfAll body)).sequence statement.term =
      joined (Statement.termsOfAll (body ++ [statement])) := by
  simp [← foldl_sequence_empty, termsOfAll_append, Statement.termsOfAll]

end Blocks

inductive Reads : State → List Token → Prop where
  | start (bodies : List (List Statement)) :
      Reads ⟨blockTerms bodies, .start⟩ (blockTokens bodies)
  | operand (bodies : List (List Statement)) {c : Category} {frames : List Frame}
      {ts : List Token} (opened : Opened c frames ts) :
      Reads ⟨blockTerms bodies, .operand frames⟩ (blockTokens bodies ++ ts)
  | operator (bodies : List (List Statement)) {c : Category} {frames : List Frame}
      {ts : List Token} (opened : Opened c frames ts) (x : Phrase .primary) :
      Reads ⟨blockTerms bodies, .operator frames x.term⟩ (blockTokens bodies ++ (ts ++ x.tokens))

def Sound (ts : List Token) : Step → Prop
  | .next state => Reads state ts
  | .accept term => ∃ statement : Statement, statement.tokens = ts ∧ statement.term = term
  | .reject _ => True

theorem sound_endStatement (bodies : List (List Statement)) (statement : Statement) :
    Sound (blockTokens bodies ++ statement.tokens)
      (endStatement statement.term (blockTerms bodies)) := by
  cases bodies with
  | nil => exact ⟨statement, by simp [blockTokens], rfl⟩
  | cons body outer =>
      have := Reads.start ((body ++ [statement]) :: outer)
      simpa [blockTokens, blockTerms, tokensOfAll_append, Statement.tokensOfAll, sequence_joined,
        endStatement, Sound] using this

theorem sound_stepOperand (bodies : List (List Statement)) {c : Category} {frames : List Frame}
    {ts : List Token} (opened : Opened c frames ts) (t : Token) :
    Sound (blockTokens bodies ++ (ts ++ [t])) (stepOperand (blockTerms bodies) frames t) := by
  unfold stepOperand
  split
  · exact .operand bodies opened.paren
  · exact .operand bodies opened.plus
  · exact .operand bodies (opened.sign .negate)
  · exact .operand bodies (opened.sign .bitNot)
  · split
    · rename_i value text _ number valid
      exact .operator bodies opened (.integer value text number valid)
    · trivial
  · split
    · rename_i value text _ number valid
      exact .operator bodies opened (.float value text number valid)
    · trivial
  · rename_i text
    exact .operator bodies opened (.name text)
  · trivial

theorem sound_stepClose (bodies : List (List Statement)) {c : Category} {frames : List Frame}
    {ts : List Token} (opened : Opened c frames ts) (x : Phrase .primary) (t : Token) :
    Sound (blockTokens bodies ++ (ts ++ x.tokens ++ [t]))
      (stepClose (blockTerms bodies) frames x.term t) := by
  have held := holds_complete 0 (by decide) opened .primary x c.rank_le_eight (Nat.zero_le _)
  unfold stepClose
  split
  · rename_i term completed
    rw [completed] at held
    obtain ⟨c', d', us, y, opened', rfl, tokens_eq, -, category⟩ := held
    split
    · rename_i same
      obtain ⟨z, tokens_eq', term_eq⟩ :=
        Phrase.exists_looser .assignment d' (Nat.zero_le _) y
      -- without frames nothing but plus signs can have been read before the phrase
      cases opened' with
      | bottom =>
          have := sound_endStatement bodies (.expression z)
          simpa [Statement.tokens, Statement.term, tokens_eq', term_eq, ← tokens_eq, same]
            using this
      | plus => simp [Category.rank] at category
    · trivial
  · rename_i term frame outer completed
    rw [completed] at held
    obtain ⟨c', d', us, y, opened', rfl, tokens_eq, -, category⟩ := held
    split
    · rename_i same
      obtain ⟨z, tokens_eq', term_eq⟩ :=
        Phrase.exists_looser .assignment d' (Nat.zero_le _) y
      have waits := complete?_eq_none_of_complete 0 frames _ _ frame outer completed
      cases opened' with
      | paren outer =>
          have := Reads.operator bodies outer (.paren z)
          simpa [Sound, Phrase.term, Phrase.tokens, tokens_eq', term_eq, ← tokens_eq, same]
            using this
      | assign => simp [Frame.complete?] at waits
      | binary => simp [Frame.complete?] at waits
      | sign => simp [Frame.complete?] at waits
      | plus => simp [Category.rank] at category
    · trivial

theorem sound_stepOperator (bodies : List (List Statement)) {c : Category}
    {frames : List Frame} {ts : List Token} (opened : Opened c frames ts) (x : Phrase .primary)
    (t : Token) :
    Sound (blockTokens bodies ++ (ts ++ x.tokens ++ [t]))
      (stepOperator (blockTerms bodies) frames x.term t) := by
  unfold stepOperator
  split
  · obtain ⟨c', d', us, y, opened', term_eq, tokens_eq, reaches, category⟩ :=
      holds_complete 1 (by decide) opened .primary x c.rank_le_eight (by decide)
    obtain ⟨z, tokens_eq', term_eq'⟩ := Phrase.exists_looser .bitOr d' reaches y
    obtain rfl : c' = .assignment := by
      rcases category with rfl | range
      · rfl
      · omega
    have := Reads.operand bodies (opened'.assign z)
    simpa [Sound, tokens_eq', term_eq', term_eq, ← tokens_eq] using this
  · rename_i s _
    split
    · rename_i op found
      obtain ⟨e, member⟩ := exists_mem_operators_of_binaryOp? s op found
      have level_eq := level_eq_rank e s op member
      have levels := Category.rank_of_mem_operators e s op member
      obtain ⟨c', d', us, y, opened', term_eq, tokens_eq, reaches, category⟩ :=
        holds_complete (level op) (by omega) opened .primary x c.rank_le_eight
          (by simp only [Category.rank]; omega)
      obtain ⟨z, tokens_eq', term_eq'⟩ := Phrase.exists_looser e d' (by omega) y
      have looser : c'.rank ≤ e.rank := by
        rcases category with rfl | range
        · exact Nat.zero_le _
        · omega
      have := Reads.operand bodies (opened'.binary looser s op member z)
      simpa [Sound, tokens_eq', term_eq', term_eq, ← tokens_eq] using this
    · exact sound_stepClose bodies opened x _
  · exact sound_stepClose bodies opened x _

theorem sound_stepStart (bodies : List (List Statement)) (t : Token) :
    Sound (blockTokens bodies ++ [t]) (stepStart (blockTerms bodies) t) := by
  unfold stepStart
  split
  · have := Reads.start ([] :: bodies)
    simpa [Sound, blockTokens, blockTerms, Statement.tokensOfAll, Statement.termsOfAll, joined]
      using this
  · exact sound_endStatement bodies .empty
  · rename_i block outer blocks_eq
    cases bodies with
    | nil => simp [blockTerms] at blocks_eq
    | cons body bodies =>
        have := sound_endStatement bodies (.block body)
        simp only [blockTerms, List.map_cons, List.cons.injEq] at blocks_eq
        obtain ⟨rfl, rfl⟩ := blocks_eq
        simpa [blockTokens, Statement.tokens, Statement.term, blockTerms] using this
  · simpa using sound_stepOperand bodies .bottom _

theorem sound_step (state : State) (ts : List Token) (reads : Reads state ts) (t : Token) :
    Sound (ts ++ [t]) (step state t) := by
  cases reads with
  | start bodies => exact sound_stepStart bodies t
  | operand bodies opened =>
      simpa [step] using sound_stepOperand bodies opened t
  | operator bodies opened x => simpa [step] using sound_stepOperator bodies opened x t

theorem reads_initial (ts : List Token) (reads : Reads .initial ts) : ts = [] := by
  generalize start : State.initial = state at reads
  cases reads with
  | start bodies =>
      cases bodies with
      | nil => rfl
      | cons => simp [State.initial, blockTerms] at start
  | operand => simp [State.initial] at start
  | operator => simp [State.initial] at start

/-- What is read without an error has a derivation. The tokens of a statement that has been begun
are those in `ts`. -/
theorem exists_program_of_read (tokens : List Token) (state : State) (ts : List Token)
    (reads : Reads state ts)
    (complete : (Script.read .finished state (tokens.map .ok)).error = none) :
    ∃ program : Program, program.tokens = ts ++ tokens ∧
      program.terms = (Script.read .finished state (tokens.map .ok)).statements := by
  induction tokens generalizing state ts with
  | nil =>
      obtain rfl := eq_initial_of_read_nil state complete
      obtain rfl := reads_initial ts reads
      exact ⟨[], rfl, rfl⟩
  | cons t tokens ih =>
      have sound := sound_step state ts reads t
      simp only [List.map_cons, Script.read] at complete ⊢
      split
      · rename_i next step_eq
        rw [step_eq] at sound
        simp only [step_eq] at complete
        simpa using ih next (ts ++ [t]) sound complete
      · rename_i term step_eq
        rw [step_eq] at sound
        simp only [step_eq] at complete
        obtain ⟨statement, tokens_eq, rfl⟩ := sound
        obtain ⟨program, rest_tokens, rest_terms⟩ := ih .initial [] (.start []) complete
        refine ⟨statement :: program, ?_, ?_⟩
        · simp_all [Program.tokens, Statement.tokensOfAll]
        · simp_all [Program.terms, Statement.termsOfAll]
      · rename_i step_eq
        simp [step_eq] at complete

end Abacus.Parser
