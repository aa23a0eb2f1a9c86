import Abacus.Proofs.Parser.Lookahead

/-!
Requests for statements that go on after errors. Main statement: on a text of `n` runes all replies
from the one after the `n`-th on are the same, and a request that is answered in another way uses up
some of the text.
-/
namespace Abacus
open Abacus.Parser

theorem length_scanAll_le (ending : Ending) (text : List Char) :
    (scanAll ending text).length ≤ text.length := by
  by_cases empty : text = []
  · simp [empty]
  · have shorter := Scan.scan_rest_length_lt ending text empty
    have ih := length_scanAll_le ending (scan ending text).2
    rw [scanAll_of_ne_nil ending text empty]
    split
    · exact Nat.zero_le _
    · rw [List.length_cons]
      omega
termination_by text.length

namespace TokenStream
variable (items : List Item)

def left (count : Nat) : List Item :=
  (after ⟨items, .finished⟩ count).items

theorem left_succ (count : Nat) :
    left items (count + 1) = (run .finished .initial (left items count)).2 := by
  rw [left, left, after, statement_eq, ending_after]

theorem left_add (count more : Nat) (fixed : left items (count + 1) = left items count) :
    left items (count + more) = left items count := by
  induction more with
  | zero => rfl
  | succ more ih => rw [← Nat.add_assoc, left_succ, ih, ← left_succ, fixed]

theorem left_succ_eq_or_length_le (count : Nat) :
    left items (count + 1) = left items count ∨
      (left items count).length + count ≤ items.length := by
  induction count with
  | zero => exact .inr (Nat.le_refl _)
  | succ count ih =>
      rcases ih with fixed | bound
      · exact .inl ((left_add items count 2 fixed).trans fixed.symm)
      · rcases stuck_or_length_lt (left items count) with ⟨-, fixed⟩ | shorter
        · rw [← left_succ] at fixed
          exact .inl ((left_add items count 2 fixed).trans fixed.symm)
        · rw [← left_succ] at shorter
          exact .inr (by omega)

theorem left_succ_eq_of_le (count : Nat) (enough : items.length ≤ count) :
    left items (count + 1) = left items count := by
  rcases left_succ_eq_or_length_le items count with fixed | bound
  · exact fixed
  · have empty : left items count = [] := List.eq_nil_of_length_eq_zero (by omega)
    rw [left_succ, empty]
    rfl

theorem left_eq_of_le (count : Nat) (enough : items.length ≤ count) :
    left items count = left items items.length := by
  obtain ⟨more, rfl⟩ := Nat.exists_eq_add_of_le enough
  exact left_add items items.length more (left_succ_eq_of_le items _ (Nat.le_refl _))

end TokenStream

namespace Lookahead

def reader (text : List Char) (count : Nat) : Lookahead :=
  after { source := ⟨text, .finished⟩ } count

section Reader
variable (text : List Char) (count : Nat)

theorem items_reader :
    (reader text count).items = TokenStream.left (scanAll .finished text) count :=
  items_after ⟨text, .finished⟩ count

theorem reads_reader :
    Reads .initial (reader text count) ((reader text count).run .initial) :=
  reads_run .initial _ (sound_after _ count)

theorem run_reader :
    Parser.run .finished .initial (reader text count).items =
      ((reader text count).reply, (reader text (count + 1)).items) := by
  have read := (reads_reader text count).run_eq
  rwa [show (reader text count).source.ending = .finished from ending_after _ count] at read

theorem reply_eq_of_items_eq (fixed : (reader text (count + 1)).items = (reader text count).items)
    (later : Nat) (enough : text.length ≤ later) :
    (reader text later).reply = (reader text count).reply := by
  have bound := length_scanAll_le .finished text
  -- `later` may come before `count`, so both are compared with their sum
  have same : (reader text later).items = (reader text count).items := by
    simp only [items_reader] at fixed ⊢
    calc TokenStream.left (scanAll .finished text) later
        = TokenStream.left (scanAll .finished text) (count + later) := by
          rw [TokenStream.left_eq_of_le _ later (by omega),
            TokenStream.left_eq_of_le _ (count + later) (by omega)]
      _ = TokenStream.left (scanAll .finished text) count := TokenStream.left_add _ _ _ fixed
  have run_later := run_reader text later
  rw [same, run_reader] at run_later
  exact (congrArg Prod.fst run_later).symm

theorem items_reader_of_le (enough : text.length ≤ count) :
    (reader text count).items = (reader text text.length).items := by
  have bound := length_scanAll_le .finished text
  rw [items_reader, items_reader, TokenStream.left_eq_of_le _ count (by omega),
    TokenStream.left_eq_of_le _ text.length bound]

theorem stuck_reader (enough : text.length ≤ count) :
    Stuck (reader text count).items (reader text count).reply := by
  have read := run_reader text count
  rcases stuck_or_length_lt (reader text count).items with ⟨stuck, -⟩ | shorter
  · rwa [read] at stuck
  · rw [read, items_reader_of_le text count enough,
      items_reader_of_le text (count + 1) (by omega)] at shorter
    exact absurd shorter (Nat.lt_irrefl _)

end Reader

/-- Requests that go on after errors settle: after as many of them as there are runes every reply is
the same, the end of input or an error at a token that stays in the slot. A request with another
reply takes a token, or runes up to a lexical error. -/
theorem reply_settles (text : List Char) :
    (∀ count, (reader text count).reply =
      ((Source.mk text .finished).stream.after count).statement.1) ∧
    ∃ last : Reply,
      (∀ count, text.length ≤ count → (reader text count).reply = last) ∧
      (last = .endOfInput ∨ ∃ (t : Token) (error : ParseError), last = .error error ∧
        step .initial t = .reject error ∧
        (error = .unexpected t ∨ (∃ cause, error = .badInteger cause) ∨
          ∃ cause, error = .badFloat cause) ∧
        ∀ count, text.length < count → (reader text count).slot = some t) ∧
      ∀ count, (reader text count).reply ≠ last →
        (∃ (t : Token) (tokens : List Token), (reader text count).items =
          (t :: tokens).map .ok ++ (reader text (count + 1)).items) ∨
        ∃ cause, (reader text count).reply = .error (.lexical cause) ∧
          (reader text (count + 1)).source.chars.length <
            (reader text count).source.chars.length := by
  have settled (count : Nat) := items_reader_of_le text count
  refine ⟨fun count => reply_after _ count, (reader text text.length).reply,
    fun count enough => reply_eq_of_items_eq text text.length (settled _ (Nat.le_succ _)) _ enough,
    ?_, ?_⟩
  · have stuck := stuck_reader text text.length (Nat.le_refl _)
    generalize items_eq : (reader text text.length).items = items at stuck
    generalize (reader text text.length).reply = last at stuck
    cases stuck with
    | final => exact .inl rfl
    | token t rest error rejected keeps =>
        refine .inr ⟨t, error, rfl, rejected, eq_of_stepStart_eq_reject [] t error rejected, ?_⟩
        intro count late
        obtain ⟨count, rfl⟩ := Nat.exists_eq_add_of_lt late
        have items_late := (settled (text.length + count) (Nat.le_add_right _ _)).trans items_eq
        exact slot_run_of_reject .initial _ (sound_after _ _) t rest items_late error rejected keeps
  · intro count differs
    have read := run_reader text count
    rcases run_eq_append .finished .initial (reader text count).items with
      ⟨tokens, split⟩ | ⟨tokens, cause, -, lexical⟩
    · rw [read] at split
      cases tokens with
      | nil =>
          exact absurd (reply_eq_of_items_eq text count split.symm _ (Nat.le_refl _)).symm differs
      | cons t tokens => exact .inl ⟨t, tokens, split⟩
    · rw [read] at lexical
      exact .inr ⟨cause, lexical,
        (reads_reader text count).lt cause lexical (ending_after _ count)⟩

end Lookahead

end Abacus
