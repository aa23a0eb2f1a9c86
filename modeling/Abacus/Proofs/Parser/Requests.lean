import Abacus.Parser

/-!
Statements asked for one after another, whether or not a request ends in an error. Main statements:
a request uses up items from the front of the stream, and one that uses up none leaves everything as
it was, so that it is answered in the same way ever after.
-/
namespace Abacus

namespace Parser

theorem run_eq_append (ending : Ending) (state : State) (items : List Item) :
    (∃ tokens : List Token, items = tokens.map .ok ++ (run ending state items).2) ∨
      ∃ (tokens : List Token) (cause : LexError),
        items = tokens.map .ok ++ .error cause :: (run ending state items).2 ∧
          (run ending state items).1 = .error (.lexical cause) := by
  induction items generalizing state with
  | nil => exact .inl ⟨[], rfl⟩
  | cons item items ih =>
      cases item with
      | error cause => exact .inr ⟨[], cause, rfl, rfl⟩
      | ok t =>
          simp only [run]
          split
          · rename_i next _
            rcases ih next with ⟨tokens, split⟩ | ⟨tokens, cause, split, reply⟩
            · exact .inl ⟨t :: tokens, congrArg (Except.ok t :: ·) split⟩
            · exact .inr ⟨t :: tokens, cause, congrArg (Except.ok t :: ·) split, reply⟩
          · exact .inl ⟨[t], rfl⟩
          · split
            · exact .inl ⟨[], rfl⟩
            · exact .inl ⟨[t], rfl⟩

theorem run_suffix (ending : Ending) (state : State) (items : List Item) :
    (run ending state items).2 <:+ items := by
  rcases run_eq_append ending state items with ⟨tokens, split⟩ | ⟨tokens, cause, split, -⟩
  · exact ⟨_, split.symm⟩
  · exact ⟨tokens.map .ok ++ [.error cause], by rw [List.append_assoc]; exact split.symm⟩

section Rejected
variable (blocks : List Term) (t : Token) (error : ParseError)

theorem endStatement_ne_reject (term : Term) : endStatement term blocks ≠ .reject error := by
  cases blocks <;> simp [endStatement]

theorem eq_of_stepOperand_eq_reject (frames : List Frame)
    (rejected : stepOperand blocks frames t = .reject error) :
    error = .unexpected t ∨ (∃ cause, error = .badInteger cause) ∨
      ∃ cause, error = .badFloat cause := by
  revert rejected
  fun_cases stepOperand blocks frames t <;> simp_all [eq_comm]

theorem eq_of_stepStart_eq_reject (rejected : stepStart blocks t = .reject error) :
    error = .unexpected t ∨ (∃ cause, error = .badInteger cause) ∨
      ∃ cause, error = .badFloat cause := by
  revert rejected
  fun_cases stepStart blocks t
  · simp
  · exact fun same => absurd same (endStatement_ne_reject _ _ _)
  · exact fun same => absurd same (endStatement_ne_reject _ _ _)
  · exact eq_of_stepOperand_eq_reject blocks t error []

end Rejected

/-- Why a request can leave the stream as it was: at the end of input, or at a token that begins no
statement and is kept. -/
inductive Stuck : List Item → Reply → Prop where
  | final : Stuck [] .endOfInput
  | token (t : Token) (items : List Item) (error : ParseError)
      (rejected : step .initial t = .reject error) (keeps : error.keepsToken = true) :
      Stuck (.ok t :: items) (.error error)

theorem stuck_or_length_lt (items : List Item) :
    Stuck items (run .finished .initial items).1 ∧ (run .finished .initial items).2 = items ∨
      (run .finished .initial items).2.length < items.length := by
  cases items with
  | nil => exact .inl ⟨.final, rfl⟩
  | cons item items =>
      cases item with
      | error cause => exact .inr (Nat.lt_succ_self _)
      | ok t =>
          simp only [run]
          split
          · rename_i next _
            exact .inr (Nat.lt_succ_of_le (run_suffix .finished next items).length_le)
          · exact .inr (Nat.lt_succ_self _)
          · rename_i error rejected
            split
            · rename_i keeps
              exact .inl ⟨.token t items error rejected keeps, rfl⟩
            · exact .inr (Nat.lt_succ_self _)

end Parser

namespace TokenStream

def after (stream : TokenStream) : Nat → TokenStream
  | 0 => stream
  | count + 1 => (stream.after count).statement.2

@[simp] theorem ending_after (stream : TokenStream) (count : Nat) :
    (stream.after count).ending = stream.ending := by
  induction count with
  | zero => rfl
  | succ count ih => exact ih

theorem items_after_suffix (stream : TokenStream) (count : Nat) :
    (stream.after count).items <:+ stream.items := by
  induction count with
  | zero => exact List.suffix_refl _
  | succ count ih => exact (Parser.run_suffix _ _ _).trans ih

theorem statement_eq (stream : TokenStream) :
    stream.statement = ((Parser.run stream.ending .initial stream.items).1,
      ⟨(Parser.run stream.ending .initial stream.items).2, stream.ending⟩) :=
  rfl

end TokenStream

end Abacus
