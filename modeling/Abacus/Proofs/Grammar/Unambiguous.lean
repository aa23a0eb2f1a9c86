import Abacus.Proofs.Grammar

/-!
The grammar is unambiguous: a list of tokens has at most one derivation.

Phrases are compared from the left, each with the tokens that follow it. That works once what
follows cannot continue the phrase, and a phrase whose operators associate to the left is first
taken apart into its leftmost operand and the operators after that.
-/
namespace Abacus.Grammar

def Continues (c : Category) (t : Token) : Prop :=
  (c = .assignment ∧ t = .symbol .equals) ∨
    ∃ (d : Category) (s : Symbol) (op : BinaryOp),
      c.rank ≤ d.rank ∧ (s, op) ∈ d.operators ∧ t = .symbol s

def Stops (c : Category) (rest : List Token) : Prop :=
  ∀ t ∈ rest.head?, ¬ Continues c t

theorem Stops.of_rank_lt (c d : Category) (rest : List Token) (looser : c.rank < d.rank)
    (stops : Stops c rest) : Stops d rest := by
  rintro t first (⟨rfl, -⟩ | ⟨e, s, op, bound, member, rfl⟩)
  · simp [Category.rank] at looser
  · exact stops _ first (.inr ⟨e, s, op, by omega, member, rfl⟩)

theorem stops_operator (c d : Category) (s : Symbol) (op : BinaryOp) (rest : List Token)
    (member : (s, op) ∈ c.operators) (tighter : c.rank < d.rank) :
    Stops d (.symbol s :: rest) := by
  intro t first continues
  obtain rfl : .symbol s = t := by simpa using first
  rcases continues with ⟨rfl, -⟩ | ⟨e, other, op', bound, also_member, same⟩
  · simp [Category.rank] at tighter
  · obtain rfl : s = other := by simpa using same
    obtain ⟨rfl, -⟩ := Category.operators_unique c e s op op' member also_member
    omega

theorem stops_equals (d : Category) (rest : List Token) (tighter : 0 < d.rank) :
    Stops d (.symbol .equals :: rest) := by
  intro t first continues
  obtain rfl : .symbol .equals = t := by simpa using first
  rcases continues with ⟨rfl, -⟩ | ⟨e, s, op, -, member, same⟩
  · simp [Category.rank] at tighter
  · obtain rfl : Symbol.equals = s := by simpa using same
    cases e <;> simp [Category.operators] at member

theorem stops_delimiter (c : Category) (s : Symbol) (rest : List Token)
    (delimiter : s = .closeParen ∨ s = .semicolon) : Stops c (.symbol s :: rest) := by
  intro t first continues
  obtain rfl : .symbol s = t := by simpa using first
  rcases continues with ⟨-, same⟩ | ⟨e, other, op, -, member, same⟩
  · simp_all
  · obtain rfl : s = other := by simpa using same
    cases e <;> rcases delimiter with rfl | rfl <;> simp [Category.operators] at member

def Cancels (c : Category) (n : Nat) : Prop :=
  ∀ (x y : Phrase c) (r s : List Token), x.tokens.length ≤ n → Stops c r → Stops c s →
    x.tokens ++ r = y.tokens ++ s → x = y ∧ r = s

@[elab_as_elim]
theorem Phrase.primary_cases {motive : Phrase .primary → Prop}
    (integer : ∀ value text number valid, motive (.integer value text number valid))
    (float : ∀ value text number valid, motive (.float value text number valid))
    (name : ∀ text, motive (.name text)) (paren : ∀ inner, motive (.paren inner))
    (x : Phrase .primary) : motive x := by
  cases x with
  | integer => exact integer _ _ _ _
  | float => exact float _ _ _ _
  | name => exact name _
  | paren => exact paren _
  | binary _ _ member => simp [Category.operators] at member
  | lone compound => exact absurd rfl compound

@[elab_as_elim]
theorem Phrase.unary_cases {motive : Phrase .unary → Prop}
    (plus : ∀ operand, motive (.plus operand)) (sign : ∀ op operand, motive (.sign op operand))
    (lone : ∀ compound inner, motive (.lone compound inner)) (x : Phrase .unary) : motive x := by
  cases x with
  | plus => exact plus _
  | sign => exact sign _ _
  | binary _ _ member => simp [Category.operators] at member
  | lone => exact lone _ _

@[elab_as_elim]
theorem Phrase.assignment_cases {motive : Phrase .assignment → Prop}
    (assign : ∀ left right, motive (.assign left right))
    (lone : ∀ compound inner, motive (.lone compound inner)) (x : Phrase .assignment) :
    motive x := by
  cases x with
  | assign => exact assign _ _
  | binary _ _ member => simp [Category.operators] at member
  | lone => exact lone _ _

theorem cancels_primary (n : Nat) (inner : Cancels .assignment n) : Cancels .primary (n + 1) := by
  intro x y r s short stops_r stops_s same
  cases x using Phrase.primary_cases with
  | integer value text number valid =>
      cases y using Phrase.primary_cases with
      | integer value' text' number' valid' =>
          simp only [Phrase.tokens, List.cons_append, List.nil_append, List.cons.injEq,
            Token.int.injEq] at same
          obtain ⟨⟨rfl, rfl⟩, rfl⟩ := same
          obtain rfl : number = number' := Except.ok.inj (valid.symm.trans valid')
          exact ⟨rfl, rfl⟩
      | _ => simp [Phrase.tokens] at same
  | float value text number valid =>
      cases y using Phrase.primary_cases with
      | float value' text' number' valid' =>
          simp only [Phrase.tokens, List.cons_append, List.nil_append, List.cons.injEq,
            Token.float.injEq] at same
          obtain ⟨⟨rfl, rfl⟩, rfl⟩ := same
          obtain rfl : number = number' := Except.ok.inj (valid.symm.trans valid')
          exact ⟨rfl, rfl⟩
      | _ => simp [Phrase.tokens] at same
  | name text =>
      cases y using Phrase.primary_cases with
      | name text' => simpa [Phrase.tokens] using same
      | _ => simp [Phrase.tokens] at same
  | paren x =>
      cases y using Phrase.primary_cases with
      | paren y =>
          simp only [Phrase.tokens, List.cons_append, List.append_assoc, List.nil_append,
            List.cons.injEq, true_and] at same
          simp only [Phrase.tokens, List.length_cons, List.length_append] at short
          obtain ⟨rfl, rests⟩ := inner x y _ _ (by omega) (stops_delimiter _ _ _ (.inl rfl))
            (stops_delimiter _ _ _ (.inl rfl)) same
          exact ⟨rfl, (List.cons.inj rests).2⟩
      | _ => simp [Phrase.tokens] at same

theorem primary_tokens_ne_sign (x : Phrase .primary) (r rest : List Token) (s : Symbol)
    (sign : s = .plus ∨ ∃ op, s = signSymbol op) : x.tokens ++ r ≠ .symbol s :: rest := by
  have not_paren : s ≠ .openParen := by
    rcases sign with rfl | ⟨op, rfl⟩
    · simp
    · cases op <;> simp [signSymbol]
  cases x using Phrase.primary_cases <;> simp [Phrase.tokens, not_paren.symm]

theorem cancels_unary (n : Nat) (primary : Cancels .primary n)
    (shorter : ∀ m < n, Cancels .unary m) : Cancels .unary n := by
  intro x y r s short stops_r stops_s same
  cases x using Phrase.unary_cases with
  | plus x =>
      cases y using Phrase.unary_cases with
      | plus y =>
          simp only [Phrase.tokens, List.length_cons] at short
          simp only [Phrase.tokens, List.cons_append, List.cons.injEq, true_and] at same
          obtain ⟨rfl, rests⟩ := shorter _ (by omega) x y r s (Nat.le_refl _) stops_r stops_s same
          exact ⟨rfl, rests⟩
      | sign op y => cases op <;> simp [Phrase.tokens, signSymbol] at same
      | lone _ y => exact absurd same.symm (primary_tokens_ne_sign y s _ _ (.inl rfl))
  | sign op x =>
      cases y using Phrase.unary_cases with
      | plus y => cases op <;> simp [Phrase.tokens, signSymbol] at same
      | sign op' y =>
          simp only [Phrase.tokens, List.length_cons] at short
          simp only [Phrase.tokens, List.cons_append, List.cons.injEq, Token.symbol.injEq] at same
          obtain rfl : op = op' := by cases op <;> cases op' <;> simp_all [signSymbol]
          obtain ⟨rfl, rests⟩ :=
            shorter _ (by omega) x y r s (Nat.le_refl _) stops_r stops_s same.2
          exact ⟨rfl, rests⟩
      | lone _ y => exact absurd same.symm (primary_tokens_ne_sign y s _ _ (.inr ⟨op, rfl⟩))
  | lone _ x =>
      cases y using Phrase.unary_cases with
      | plus y => exact absurd same (primary_tokens_ne_sign x r _ _ (.inl rfl))
      | sign op y => exact absurd same (primary_tokens_ne_sign x r _ _ (.inr ⟨op, rfl⟩))
      | lone _ y =>
          obtain ⟨rfl, rests⟩ := primary x y r s short
            (.of_rank_lt _ _ r (by decide) stops_r) (.of_rank_lt _ _ s (by decide) stops_s) same
          exact ⟨rfl, rests⟩

structure Link (c : Category) where
  symbol : Symbol
  op : BinaryOp
  member : (symbol, op) ∈ c.operators
  operand : Phrase c.tighter

namespace Link

def tokens {c : Category} (link : Link c) : List Token :=
  .symbol link.symbol :: link.operand.tokens

def attach {c : Category} (x : Phrase c) (link : Link c) : Phrase c :=
  .binary link.symbol link.op link.member x link.operand

theorem tokens_foldl_attach {c : Category} (x : Phrase c) (links : List (Link c)) :
    (links.foldl attach x).tokens = x.tokens ++ links.flatMap tokens := by
  induction links generalizing x with
  | nil => simp
  | cons link links ih =>
      rw [List.foldl_cons, ih, List.flatMap_cons]
      simp [attach, tokens, Phrase.tokens]

theorem exists_foldl_attach (c : Category) (binary : 1 ≤ c.rank ∧ c.rank ≤ 6) (x : Phrase c) :
    ∃ (compound : c ≠ .primary) (first : Phrase c.tighter) (links : List (Link c)),
      x = links.foldl attach (.lone compound first) := by
  induction x with
  | binary s op member left right ih _ =>
      obtain ⟨compound, first, links, rfl⟩ := ih binary
      exact ⟨compound, first, links ++ [⟨s, op, member, right⟩], by simp [attach]⟩
  | lone compound first => exact ⟨compound, first, [], rfl⟩
  | integer | float | name | paren | plus | sign | assign => simp [Category.rank] at binary

theorem stops_flatMap (c : Category) (links : List (Link c)) (rest : List Token)
    (stops : Stops c rest) (compound : c ≠ .primary) :
    Stops c.tighter (links.flatMap tokens ++ rest) := by
  have tighter : c.rank < c.tighter.rank := by simp [Category.rank_tighter c compound]
  cases links with
  | nil => exact .of_rank_lt c _ rest tighter stops
  | cons link links => exact stops_operator c _ _ _ _ link.member tighter

theorem flatMap_ne_of_stops (c : Category) (link : Link c) (links : List (Link c))
    (r s : List Token) (stops : Stops c s) : (link :: links).flatMap tokens ++ r ≠ s := by
  rintro rfl
  exact stops (.symbol link.symbol) rfl
    (.inr ⟨c, link.symbol, link.op, Nat.le_refl _, link.member, rfl⟩)

theorem eq_of_flatMap_append_eq (c : Category) (n : Nat) (operands : Cancels c.tighter n)
    (compound : c ≠ .primary) (links others : List (Link c)) (r s : List Token)
    (short : (links.flatMap tokens).length ≤ n) (stops_r : Stops c r) (stops_s : Stops c s)
    (same : links.flatMap tokens ++ r = others.flatMap tokens ++ s) :
    links = others ∧ r = s := by
  induction links generalizing others with
  | nil =>
      cases others with
      | nil => exact ⟨rfl, by simpa using same⟩
      | cons other others => exact absurd same.symm (flatMap_ne_of_stops c other others s r stops_r)
  | cons link links ih =>
      cases others with
      | nil => exact absurd same (flatMap_ne_of_stops c link links r s stops_s)
      | cons other others =>
          obtain ⟨symbol, op, member, x⟩ := link
          obtain ⟨symbol', op', member', y⟩ := other
          simp only [List.flatMap_cons, tokens, List.cons_append, List.append_assoc,
            List.cons.injEq, Token.symbol.injEq] at same
          simp only [List.flatMap_cons, tokens, List.length_append, List.length_cons] at short
          obtain ⟨rfl, same⟩ := same
          obtain ⟨-, rfl⟩ := Category.operators_unique c c symbol op op' member member'
          obtain ⟨rfl, rests⟩ := operands x y _ _ (by omega)
            (stops_flatMap c links r stops_r compound)
            (stops_flatMap c others s stops_s compound) same
          obtain ⟨rfl, ends⟩ := ih others (by omega) rests
          exact ⟨rfl, ends⟩

end Link

theorem cancels_level (c : Category) (n : Nat) (binary : 1 ≤ c.rank ∧ c.rank ≤ 6)
    (operands : Cancels c.tighter n) : Cancels c n := by
  intro x y r s short stops_r stops_s same
  obtain ⟨compound, first, links, rfl⟩ := Link.exists_foldl_attach c binary x
  obtain ⟨_, other, others, rfl⟩ := Link.exists_foldl_attach c binary y
  simp only [Link.tokens_foldl_attach, Phrase.tokens, List.append_assoc, List.length_append]
    at same short
  obtain ⟨rfl, rests⟩ := operands first other _ _ (by omega)
    (Link.stops_flatMap c links r stops_r compound)
    (Link.stops_flatMap c others s stops_s compound) same
  obtain ⟨rfl, ends⟩ := Link.eq_of_flatMap_append_eq c n operands compound links others r s
    (by omega) stops_r stops_s rests
  exact ⟨rfl, ends⟩

theorem cancels_assignment (n : Nat) (level : Cancels .bitOr n)
    (shorter : ∀ m < n, Cancels .assignment m) : Cancels .assignment n := by
  intro x y r s short stops_r stops_s same
  have stops_bitOr : ∀ rest, Stops .assignment rest → Stops .bitOr rest := fun rest stops =>
    .of_rank_lt .assignment .bitOr rest (by decide) stops
  cases x using Phrase.assignment_cases with
  | assign left right =>
      cases y using Phrase.assignment_cases with
      | assign left' right' =>
          simp only [Phrase.tokens, List.length_append, List.length_cons] at short
          simp only [Phrase.tokens, List.append_assoc, List.cons_append] at same
          obtain ⟨rfl, rests⟩ := level left left' _ _ (by omega)
            (stops_equals .bitOr _ (by decide)) (stops_equals .bitOr _ (by decide)) same
          obtain ⟨rfl, ends⟩ := shorter _ (by omega) right right' r s (Nat.le_refl _) stops_r
            stops_s (List.cons.inj rests).2
          exact ⟨rfl, ends⟩
      | lone _ y =>
          simp only [Phrase.tokens, List.length_append, List.append_assoc] at short same
          obtain ⟨rfl, rests⟩ := level left y _ s (by omega)
            (stops_equals .bitOr _ (by decide)) (stops_bitOr s stops_s) same
          exact absurd (.inl ⟨rfl, rfl⟩) (stops_s (.symbol .equals) (by simp [← rests]))
  | lone _ x =>
      cases y using Phrase.assignment_cases with
      | assign left' right' =>
          simp only [Phrase.tokens, List.append_assoc] at short same
          obtain ⟨rfl, rests⟩ := level x left' r _ short
            (stops_bitOr r stops_r) (stops_equals .bitOr _ (by decide)) same
          exact absurd (.inl ⟨rfl, rfl⟩) (stops_r (.symbol .equals) (by simp [rests]))
      | lone _ y =>
          obtain ⟨rfl, ends⟩ := level x y r s short (stops_bitOr r stops_r)
            (stops_bitOr s stops_s) same
          exact ⟨rfl, ends⟩

theorem cancels_zero (c : Category) : Cancels c 0 := by
  intro x y r s short
  obtain ⟨first, rest, tokens_eq, -⟩ := x.exists_tokens_eq_cons
  simp [tokens_eq] at short

theorem cancels_all (n : Nat) : Cancels .unary n ∧ Cancels .assignment n := by
  -- on the number of tokens, and for one number from primaries to assignments
  induction n using Nat.strongRecOn with
  | ind n ih =>
      cases n with
      | zero => exact ⟨cancels_zero _, cancels_zero _⟩
      | succ n =>
          have primary := cancels_primary n (ih n (by omega)).2
          have unary := cancels_unary (n + 1) primary fun m less => (ih m less).1
          have multiplicative := cancels_level .multiplicative (n + 1) (by decide) unary
          have additive := cancels_level .additive (n + 1) (by decide) multiplicative
          have shift := cancels_level .shift (n + 1) (by decide) additive
          have bitAnd := cancels_level .bitAnd (n + 1) (by decide) shift
          have bitXor := cancels_level .bitXor (n + 1) (by decide) bitAnd
          have bitOr := cancels_level .bitOr (n + 1) (by decide) bitXor
          exact ⟨unary, cancels_assignment (n + 1) bitOr fun m less => (ih m less).2⟩

namespace Statement

theorem expression_tokens_ne (x : Phrase .assignment) (r rest : List Token) (s : Symbol)
    (other : startsPhrase (.symbol s) = false) :
    (expression x).tokens ++ r ≠ .symbol s :: rest := by
  obtain ⟨first, more, tokens_eq, starts⟩ := x.exists_tokens_eq_cons
  intro same
  simp only [tokens, tokens_eq, List.cons_append, List.cons.injEq] at same
  rw [same.1, other] at starts
  exact Bool.false_ne_true starts

theorem tokens_ne_closeBrace (statement : Statement) (r rest : List Token) :
    statement.tokens ++ r ≠ .symbol .closeBrace :: rest := by
  cases statement with
  | empty => simp [tokens]
  | block body => simp [tokens]
  | expression x => exact expression_tokens_ne x r rest .closeBrace rfl

mutual

theorem eq_of_tokens_append_eq (statement other : Statement) (r s : List Token)
    (same : statement.tokens ++ r = other.tokens ++ s) : statement = other ∧ r = s := by
  match statement, other with
  | .empty, .empty => exact ⟨rfl, by simpa [tokens] using same⟩
  | .empty, .block _ => simp [tokens] at same
  | .empty, .expression y => exact absurd same.symm (expression_tokens_ne y s r .semicolon rfl)
  | .block _, .empty => simp [tokens] at same
  | .block body, .block others =>
      simp only [tokens, List.cons_append, List.append_assoc, List.nil_append, List.cons.injEq,
        true_and] at same
      obtain ⟨rfl, rests⟩ := eq_of_tokensOfAll_append_eq body others r s same
      exact ⟨rfl, rests⟩
  | .block _, .expression y => exact absurd same.symm (expression_tokens_ne y s _ .openBrace rfl)
  | .expression x, .empty => exact absurd same (expression_tokens_ne x r s .semicolon rfl)
  | .expression x, .block _ => exact absurd same (expression_tokens_ne x r _ .openBrace rfl)
  | .expression x, .expression y =>
      simp only [tokens, List.append_assoc, List.cons_append, List.nil_append] at same
      obtain ⟨rfl, rests⟩ := (cancels_all _).2 x y _ _ (Nat.le_refl _)
        (stops_delimiter _ _ _ (.inr rfl)) (stops_delimiter _ _ _ (.inr rfl)) same
      exact ⟨rfl, (List.cons.inj rests).2⟩

theorem eq_of_tokensOfAll_append_eq (body others : List Statement) (r s : List Token)
    (same : tokensOfAll body ++ .symbol .closeBrace :: r =
      tokensOfAll others ++ .symbol .closeBrace :: s) : body = others ∧ r = s := by
  match body, others with
  | [], [] => exact ⟨rfl, by simpa [tokensOfAll] using same⟩
  | [], other :: others =>
      simp only [tokensOfAll, List.nil_append, List.append_assoc] at same
      exact absurd same.symm (tokens_ne_closeBrace other _ r)
  | first :: body, [] =>
      simp only [tokensOfAll, List.nil_append, List.append_assoc] at same
      exact absurd same (tokens_ne_closeBrace first _ s)
  | first :: body, other :: others =>
      simp only [tokensOfAll, List.append_assoc] at same
      obtain ⟨rfl, rests⟩ := eq_of_tokens_append_eq first other _ _ same
      obtain ⟨rfl, ends⟩ := eq_of_tokensOfAll_append_eq body others r s rests
      exact ⟨rfl, ends⟩

end

end Statement

theorem Program.tokens_inj (program other : Program) (same : program.tokens = other.tokens) :
    program = other := by
  have closed : Statement.tokensOfAll program ++ [.symbol .closeBrace] =
      Statement.tokensOfAll other ++ [.symbol .closeBrace] := by
    simpa [Program.tokens] using same
  exact (Statement.eq_of_tokensOfAll_append_eq program other [] [] closed).1

end Abacus.Grammar
