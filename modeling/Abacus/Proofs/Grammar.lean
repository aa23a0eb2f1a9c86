import Abacus.Parser

/-!
The grammar of scripts. Derivations are data, so that two of them can be told apart: each knows the
tokens it derives and the term it stands for, and nothing here refers to the machine that parses.
-/
namespace Abacus.Grammar

inductive Category where
  | assignment | bitOr | bitXor | bitAnd | shift | additive | multiplicative | unary | primary
  deriving DecidableEq, Repr

namespace Category

def tighter : Category → Category
  | .assignment => .bitOr
  | .bitOr => .bitXor
  | .bitXor => .bitAnd
  | .bitAnd => .shift
  | .shift => .additive
  | .additive => .multiplicative
  | .multiplicative => .unary
  | .unary | .primary => .primary

def operators : Category → List (Symbol × BinaryOp)
  | .bitOr => [(.bar, .bitOr)]
  | .bitXor => [(.caret, .bitXor)]
  | .bitAnd => [(.ampersand, .bitAnd)]
  | .shift => [(.shiftLeft, .shl), (.shiftRight, .shr)]
  | .additive => [(.plus, .add), (.minus, .sub)]
  | .multiplicative => [(.star, .mul), (.slash, .div), (.percent, .mod)]
  | .assignment | .unary | .primary => []

def rank : Category → Nat
  | .assignment => 0
  | .bitOr => 1
  | .bitXor => 2
  | .bitAnd => 3
  | .shift => 4
  | .additive => 5
  | .multiplicative => 6
  | .unary => 7
  | .primary => 8

theorem rank_inj (c d : Category) (same : c.rank = d.rank) : c = d := by
  cases c <;> cases d <;> simp_all [rank]

theorem rank_le_eight (c : Category) : c.rank ≤ 8 := by
  cases c <;> simp [rank]

theorem rank_tighter (c : Category) (compound : c ≠ .primary) :
    c.tighter.rank = c.rank + 1 := by
  cases c <;> simp_all [rank, tighter]

theorem rank_of_mem_operators (c : Category) (s : Symbol) (op : BinaryOp)
    (member : (s, op) ∈ c.operators) : 1 ≤ c.rank ∧ c.rank ≤ 6 := by
  cases c <;> simp_all [operators, rank]

theorem ne_primary_of_mem_operators (c : Category) (s : Symbol) (op : BinaryOp)
    (member : (s, op) ∈ c.operators) : c ≠ .primary := by
  rintro rfl
  simp [operators] at member

theorem operators_unique (c d : Category) (s : Symbol) (op other : BinaryOp)
    (member : (s, op) ∈ c.operators) (also_member : (s, other) ∈ d.operators) :
    c = d ∧ op = other := by
  cases c <;> cases d <;> simp_all [operators] <;> grind

end Category

def signSymbol : UnaryOp → Symbol
  | .negate => .minus
  | .bitNot => .tilde

/-- Derivations of an expression from a category. Numbers derive the tokens that have a value. -/
inductive Phrase : Category → Type where
  | integer (value : Int32) (text : String) (number : Int32)
      (valid : Literal.integer text.toList = .ok number) : Phrase .primary
  | float (value : Float) (text : String) (number : Float)
      (valid : Literal.float text.toList = .ok number) : Phrase .primary
  | name (text : String) : Phrase .primary
  | paren (inner : Phrase .assignment) : Phrase .primary
  | plus (operand : Phrase .unary) : Phrase .unary
  | sign (op : UnaryOp) (operand : Phrase .unary) : Phrase .unary
  | binary {c : Category} (s : Symbol) (op : BinaryOp) (member : (s, op) ∈ c.operators)
      (left : Phrase c) (right : Phrase c.tighter) : Phrase c
  | assign (left : Phrase .bitOr) (right : Phrase .assignment) : Phrase .assignment
  | lone {c : Category} (compound : c ≠ .primary) (inner : Phrase c.tighter) : Phrase c

namespace Phrase

def tokens : {c : Category} → Phrase c → List Token
  | _, .integer value text _ _ => [.int value text]
  | _, .float value text _ _ => [.float value text]
  | _, .name text => [.name text]
  | _, .paren inner => .symbol .openParen :: (inner.tokens ++ [.symbol .closeParen])
  | _, .plus operand => .symbol .plus :: operand.tokens
  | _, .sign op operand => .symbol (signSymbol op) :: operand.tokens
  | _, .binary s _ _ left right => left.tokens ++ .symbol s :: right.tokens
  | _, .assign left right => left.tokens ++ .symbol .equals :: right.tokens
  | _, .lone _ inner => inner.tokens

/-- Parentheses and plus signs leave no trace in the term. -/
def term : {c : Category} → Phrase c → Term
  | _, .integer _ _ number _ => .leaf (.number number)
  | _, .float _ _ number _ => .leaf (.float number)
  | _, .name text => .leaf (.ident text)
  | _, .paren inner => inner.term
  | _, .plus operand => operand.term
  | _, .sign op operand => .unary op operand.term
  | _, .binary _ op _ left right => .binary op left.term right.term
  | _, .assign left right => .assign left.term right.term
  | _, .lone _ inner => inner.term

theorem exists_looser (c d : Category) (looser : c.rank ≤ d.rank) (x : Phrase d) :
    ∃ y : Phrase c, y.tokens = x.tokens ∧ y.term = x.term := by
  by_cases same : c.rank = d.rank
  · obtain rfl := Category.rank_inj c d same
    exact ⟨x, rfl, rfl⟩
  · have compound : c ≠ .primary := by
      rintro rfl
      have := Category.rank_le_eight d
      simp only [Category.rank] at *
      omega
    have step := Category.rank_tighter c compound
    obtain ⟨y, tokens_eq, term_eq⟩ := exists_looser c.tighter d (by omega) x
    exact ⟨.lone compound y, tokens_eq, term_eq⟩
termination_by d.rank - c.rank

theorem isEmpty_term {c : Category} (x : Phrase c) : x.term.isEmpty = false := by
  induction x with
  | paren _ ih => exact ih
  | plus _ ih => exact ih
  | lone _ _ ih => exact ih
  | integer | float | name | sign | binary | assign => rfl

end Phrase

def startsPhrase : Token → Bool
  | .int _ _ | .float _ _ | .name _ => true
  | .symbol .openParen | .symbol .plus | .symbol .minus | .symbol .tilde => true
  | _ => false

theorem Phrase.exists_tokens_eq_cons {c : Category} (x : Phrase c) :
    ∃ first rest, x.tokens = first :: rest ∧ startsPhrase first = true := by
  induction x with
  | integer | float | name | paren | plus => exact ⟨_, _, rfl, rfl⟩
  | sign op => exact ⟨_, _, rfl, by cases op <;> rfl⟩
  | binary s _ _ _ right ih _ =>
      obtain ⟨first, rest, tokens_eq, starts⟩ := ih
      exact ⟨first, rest ++ .symbol s :: right.tokens, by simp [tokens, tokens_eq], starts⟩
  | assign _ right ih _ =>
      obtain ⟨first, rest, tokens_eq, starts⟩ := ih
      exact ⟨first, rest ++ .symbol .equals :: right.tokens, by simp [tokens, tokens_eq], starts⟩
  | lone _ _ ih => exact ih

/-- The terms of a block in sequence: the terms that have an effect, joined from the left. -/
def joined (terms : List Term) : Term :=
  match terms.filter (!·.isEmpty) with
  | [] => .empty
  | first :: rest => rest.foldl (.node .glue) first

inductive Statement where
  | empty
  | block (body : List Statement)
  | expression (phrase : Phrase .assignment)

namespace Statement

mutual

def tokens : Statement → List Token
  | .empty => [.symbol .semicolon]
  | .block body => .symbol .openBrace :: (tokensOfAll body ++ [.symbol .closeBrace])
  | .expression phrase => phrase.tokens ++ [.symbol .semicolon]

def tokensOfAll : List Statement → List Token
  | [] => []
  | first :: rest => tokens first ++ tokensOfAll rest

end

mutual

def term : Statement → Term
  | .empty => .empty
  | .block body => joined (termsOfAll body)
  | .expression phrase => phrase.term

def termsOfAll : List Statement → List Term
  | [] => []
  | first :: rest => term first :: termsOfAll rest

end

section Closed
variable (p : Term → Prop)

theorem foldl_glue_of_closed
    (glue : ∀ first second, p first → p second → p (.node .glue first second))
    (terms : List Term) (first : Term) (here : p first) (all : ∀ t ∈ terms, p t) :
    p (terms.foldl (.node .glue) first) := by
  induction terms generalizing first with
  | nil => exact here
  | cons second terms ih =>
      exact ih _ (glue first second here (all second List.mem_cons_self))
        fun t member => all t (.tail second member)

theorem joined_of_closed (glue : ∀ first second, p first → p second → p (.node .glue first second))
    (terms : List Term) (all : ∀ t ∈ terms, t.isEmpty = false → p t)
    (nonempty : (joined terms).isEmpty = false) : p (joined terms) := by
  have kept : ∀ t ∈ terms.filter (!·.isEmpty), p t := by
    intro t member
    obtain ⟨member, effective⟩ := List.mem_filter.mp member
    exact all t member (by simpa using effective)
  unfold joined at nonempty ⊢
  split at nonempty
  · simp [Tree.isEmpty] at nonempty
  · rename_i first rest filtered
    rw [filtered] at kept
    exact foldl_glue_of_closed p glue rest first (kept first List.mem_cons_self)
      fun t member => kept t (.tail first member)

mutual

/-- What is true of the expressions with good tokens, and of two terms in sequence if it is true of
both, is true of the statements with good tokens that have an effect. -/
theorem term_of_closed (good : Token → Prop)
    (glue : ∀ first second, p first → p second → p (.node .glue first second))
    (phrases : ∀ x : Phrase .assignment, (∀ t ∈ x.tokens, good t) → p x.term) :
    (x : Statement) → (∀ t ∈ x.tokens, good t) → x.term.isEmpty = false → p x.term
  | .empty, _, nonempty => by simp [term, Tree.isEmpty] at nonempty
  | .block body, all, nonempty =>
      joined_of_closed p glue _ (termsOfAll_of_closed good glue phrases body fun t member =>
        all t (by simp [tokens, member])) nonempty
  | .expression phrase, all, _ => phrases phrase fun t member => all t (by simp [tokens, member])

theorem termsOfAll_of_closed (good : Token → Prop)
    (glue : ∀ first second, p first → p second → p (.node .glue first second))
    (phrases : ∀ x : Phrase .assignment, (∀ t ∈ x.tokens, good t) → p x.term) :
    (body : List Statement) → (∀ t ∈ tokensOfAll body, good t) →
      ∀ t ∈ termsOfAll body, t.isEmpty = false → p t
  | [], _ => by simp [termsOfAll]
  | first :: rest, all => by
      intro t member nonempty
      rcases List.mem_cons.mp member with rfl | member
      · exact term_of_closed good glue phrases first (fun t member =>
          all t (by simp [tokensOfAll, member])) nonempty
      · exact termsOfAll_of_closed good glue phrases rest (fun t member =>
          all t (by simp [tokensOfAll, member])) t member nonempty

end

end Closed

end Statement

abbrev Program := List Statement

def Program.tokens (program : Program) : List Token :=
  Statement.tokensOfAll program

def Program.terms (program : Program) : List Term :=
  Statement.termsOfAll program

end Abacus.Grammar
