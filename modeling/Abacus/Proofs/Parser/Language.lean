import Abacus.Proofs.Grammar.Unambiguous
import Abacus.Proofs.Parser.Soundness
import Abacus.Proofs.Token.Stream

/-!
The language of the parser. Main statement: the requests for statements are answered up to the end
of input exactly if the tokens have a derivation, and then with the terms of the only one.
-/
namespace Abacus

namespace Parser

theorem replyAtEnd_ne_statement (ending : Ending) (state : State) (term : Term) :
    replyAtEnd ending state ≠ .statement term := by
  fun_cases replyAtEnd ending state <;> simp

theorem read_eq_of_run (ending : Ending) (state : State) (items : List Item) :
    Script.read ending state items =
      match run ending state items with
      | (.statement term, rest) =>
          { Script.read ending .initial rest with
            statements := term :: (Script.read ending .initial rest).statements }
      | (reply, _) => Script.ofReply reply := by
  induction items generalizing state with
  | nil =>
      simp only [Script.read, run]
      split
      · rename_i term _ same
        exact absurd (congrArg Prod.fst same) (replyAtEnd_ne_statement ending state term)
      · rename_i reply _ _ same
        exact congrArg Script.ofReply (congrArg Prod.fst same)
  | cons item items ih =>
      cases item with
      | error cause => rfl
      | ok t =>
          simp only [Script.read, run]
          cases step state t with
          | next state => exact ih state
          | accept term => rfl
          | reject error => rfl

end Parser

deriving instance DecidableEq for Script

def Script.replies (script : Script) : List Parser.Reply :=
  script.statements.map .statement ++
    [match script.error with
      | none => .endOfInput
      | some error => .error error]

theorem TokenStream.replies_eq_take (count : Nat) (stream : TokenStream) :
    stream.replies false count =
      (Script.read stream.ending .initial stream.items).replies.take count := by
  induction count generalizing stream with
  | zero => rfl
  | succ count ih =>
      obtain ⟨items, ending⟩ := stream
      rw [Parser.read_eq_of_run]
      simp only [replies, statement]
      rcases Parser.run ending .initial items with ⟨reply, rest⟩
      cases reply with
      | endOfInput => simp [Script.ofReply, Script.replies]
      | statement term => simp [ih, Script.replies]
      | error error => simp [Script.ofReply, Script.replies]

def TokenStream.Gives (stream : TokenStream) (terms : List Term) : Prop :=
  ∃ count, stream.replies false count = terms.map .statement ++ [.endOfInput]

theorem Script.eq_of_take_replies_eq (script : Script) (count : Nat) (terms : List Term)
    (last : Parser.Reply) (other : ∀ term, last ≠ .statement term)
    (same : script.replies.take count = terms.map .statement ++ [last]) :
    script.replies = terms.map .statement ++ [last] := by
  by_cases few : count ≤ script.statements.length
  · have member : last ∈ script.replies.take count := by simp [same]
    rw [replies, List.take_append_of_le_length (by simpa using few)] at member
    obtain ⟨term, -, rfl⟩ := List.mem_map.mp (List.mem_of_mem_take member)
    exact absurd rfl (other term)
  · rwa [List.take_of_length_le] at same
    simp only [replies, List.length_append, List.length_map, List.length_singleton]
    omega

theorem TokenStream.gives_iff (stream : TokenStream) (terms : List Term) :
    stream.Gives terms ↔ Script.read stream.ending .initial stream.items = ⟨terms, none⟩ := by
  generalize script_eq : Script.read stream.ending .initial stream.items = script
  constructor
  · rintro ⟨count, replies_eq⟩
    rw [replies_eq_take, script_eq] at replies_eq
    have same := script.eq_of_take_replies_eq count terms _ (by simp) replies_eq
    obtain ⟨statements, error⟩ := script
    obtain ⟨statements_eq, last⟩ := List.append_inj' same rfl
    cases error with
    | none =>
        obtain rfl : statements = terms := (List.map_inj_right (by simp)).mp statements_eq
        rfl
    | some error => simp at last
  · rintro rfl
    refine ⟨terms.length + 1, ?_⟩
    rw [replies_eq_take, script_eq, List.take_of_length_le (by simp [Script.replies])]
    rfl

theorem TokenStream.exists_replies_error (stream : TokenStream) (error : ParseError)
    (fails : (Script.read stream.ending .initial stream.items).error = some error) :
    ∃ (count : Nat) (terms : List Term),
      stream.replies false count = terms.map .statement ++ [.error error] := by
  generalize script_eq : Script.read stream.ending .initial stream.items = script at fails
  refine ⟨script.replies.length, script.statements, ?_⟩
  rw [replies_eq_take, script_eq, List.take_length, Script.replies, fails]

namespace Parser
open Grammar

theorem read_eq_iff (tokens : List Token) (terms : List Term) :
    Script.read .finished .initial (tokens.map .ok) = ⟨terms, none⟩ ↔
      ∃ program : Program, program.tokens = tokens ∧ program.terms = terms := by
  constructor
  · intro read_eq
    have complete : (Script.read .finished .initial (tokens.map .ok)).error = none := by
      rw [read_eq]
    obtain ⟨program, tokens_eq, terms_eq⟩ :=
      exists_program_of_read tokens .initial [] (.start []) complete
    exact ⟨program, tokens_eq, by rw [terms_eq, read_eq]⟩
  · rintro ⟨program, rfl, rfl⟩
    exact read_program program

end Parser

open Grammar in
/-- Of a source that has the given tokens, the requests for statements give terms up to the end of
input exactly if the tokens have a derivation with these terms. There is no other derivation, and
without one some request ends in an error. -/
theorem Source.gives_iff_derives (source : Source) (tokens : List Token) (requests : Nat)
    (lexed : source.answers false requests = tokens.map .ok ++ [.ok .eof]) :
    (∀ terms, source.stream.Gives terms ↔
      ∃ program : Program, program.tokens = tokens ∧ program.terms = terms) ∧
    (∀ program other : Program, program.tokens = tokens → other.tokens = tokens →
      program = other) ∧
    ((¬ ∃ program : Program, program.tokens = tokens) →
      ∃ (count : Nat) (terms : List Term) (error : ParseError),
        source.stream.replies false count = terms.map .statement ++ [.error error]) := by
  obtain ⟨finished, items_eq⟩ := source.stream_of_answers tokens requests lexed
  have gives : ∀ terms, source.stream.Gives terms ↔
      ∃ program : Program, program.tokens = tokens ∧ program.terms = terms := by
    intro terms
    rw [TokenStream.gives_iff, items_eq, show source.stream.ending = .finished from finished]
    exact Parser.read_eq_iff tokens terms
  refine ⟨gives, ?_, ?_⟩
  · intro program other tokens_eq others_eq
    exact program.tokens_inj other (tokens_eq.trans others_eq.symm)
  · intro underivable
    generalize read_eq :
      Script.read source.stream.ending .initial source.stream.items = script
    obtain ⟨statements, error⟩ := script
    cases error with
    | none =>
        obtain ⟨program, tokens_eq, -⟩ :=
          (gives statements).mp ((TokenStream.gives_iff _ _).mpr read_eq)
        exact absurd ⟨program, tokens_eq⟩ underivable
    | some error =>
        obtain ⟨count, terms, replies_eq⟩ :=
          source.stream.exists_replies_error error (by rw [read_eq])
        exact ⟨count, terms, error, replies_eq⟩

open Grammar in
theorem Source.gives_iff_derives_nested :
    ∃ program : Program, program.tokens = [.symbol .openBrace, .name "x", .symbol .equals,
        .symbol .minus, .int 1 "1", .symbol .semicolon, .symbol .closeBrace] ∧
      program.terms = [.assign (.leaf (.ident "x")) (.unary .negate (.leaf (.number 1)))] :=
  ((gives_iff_derives ⟨"\x7bx=-1;\x7d".toList, .finished⟩ _ 8 rfl).1 _).mp
    ((TokenStream.gives_iff _ _).mpr (by decide +kernel))

end Abacus
