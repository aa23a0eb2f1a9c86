import Abacus.Proofs.Parser.Requests
import Abacus.Proofs.Token.Stream

/-!
Parsing behind one token of lookahead. Main statement: a parser that looks at one token at a time,
and takes it once it is used, answers as the machine does on the items of the whole source.
-/
namespace Abacus
open Abacus.Parser

namespace Parser

/-- At the end of input inside an expression the parser asks for a closing symbol, and takes what it
finds in its place. Anywhere else it only looks. -/
def State.takesEnd (state : State) : Bool :=
  match state.phase with
  | .operator _ _ => true
  | _ => false

theorem step_ne_reject_lexical (state : State) (token : Token) (cause : LexError) :
    step state token ≠ .reject (.lexical cause) := by
  have atClose (blocks : List Term) (frames : List Frame) (operand : Term) :
      stepClose blocks frames operand token ≠ .reject (.lexical cause) := by
    fun_cases stepClose blocks frames operand token <;> simp [endStatement_ne_reject]
  fun_cases step state token
  · exact fun rejected => by simpa using eq_of_stepStart_eq_reject _ _ _ rejected
  · exact fun rejected => by simpa using eq_of_stepOperand_eq_reject _ _ _ _ rejected
  · rename_i frames operand _
    fun_cases stepOperator state.blocks frames operand token <;> simp [atClose]

theorem replyAtEnd_finished_ne_lexical (state : State) (cause : LexError) :
    replyAtEnd .finished state ≠ .error (.lexical cause) := by
  have located : endError? state ≠ some (.lexical cause) := by
    fun_cases endError? state <;> simp
  simp only [replyAtEnd]
  split
  · simp
  · rename_i error found
    rintro ⟨⟩
    exact located found

end Parser

namespace Lookahead

/-- The items to come: the token that has been looked at, and those of the source. The end of input
is not one of them. -/
def items (l : Lookahead) : List Item :=
  (l.slot.toList.filter (· ≠ .eof)).map .ok ++ l.source.stream.items

@[simp] theorem items_none (text : List Char) (ending : Ending) :
    items ⟨none, text, ending⟩ = scanAll ending text :=
  rfl

@[simp] theorem items_eof (text : List Char) (ending : Ending) :
    items ⟨some .eof, text, ending⟩ = scanAll ending text :=
  rfl

theorem items_some (t : Token) (inner : t ≠ .eof) (text : List Char) (ending : Ending) :
    items ⟨some t, text, ending⟩ = .ok t :: scanAll ending text := by
  simp [items, inner, Source.stream]

def Sound (l : Lookahead) : Prop :=
  l.slot = some .eof → l.source = ⟨[], .finished⟩

inductive Looks (l : Lookahead) : Item × Lookahead → Prop where
  | token (t : Token) (text : List Char) (inner : t ≠ .eof)
      (items : l.items = .ok t :: scanAll l.source.ending text)
      (le : text.length ≤ l.source.chars.length) :
      Looks l (.ok t, ⟨some t, text, l.source.ending⟩)
  | final (items : l.items = []) (finished : l.source.ending = .finished) :
      Looks l (.ok .eof, ⟨some .eof, [], .finished⟩)
  | lexical (cause : LexError) (text : List Char)
      (items : l.items = .error cause :: scanAll l.source.ending text)
      (lt : text.length < l.source.chars.length) :
      Looks l (.error cause, ⟨none, text, l.source.ending⟩)
  | failed (reason : String) (items : l.items = []) (failed : l.source.ending = .failed reason) :
      Looks l (.error (.readFailure reason), ⟨none, [], .failed reason⟩)

theorem looks_peek (l : Lookahead) (sound : l.Sound) : Looks l l.peek := by
  obtain ⟨slot, text, ending⟩ := l
  cases slot with
  | some t =>
      by_cases final : t = .eof
      · subst final
        cases sound rfl
        exact .final (by simp) rfl
      · exact .token t text final (items_some t final text ending) (Nat.le_refl _)
  | none =>
      by_cases empty : text = []
      · subst empty
        cases ending with
        | finished => exact .final (by simp) rfl
        | failed reason => exact .failed reason (by simp) rfl
      · rcases scanned : scan ending text with ⟨item, rest⟩
        have shorter := Scan.scan_rest_length_lt ending text empty
        rw [scanned] at shorter
        cases item with
        | error cause =>
            simp only [peek, Source.next, scanned]
            refine .lexical cause rest ?_ shorter
            rw [items_none, scanAll_of_ne_nil ending text empty, scanned]
            rfl
        | ok t =>
            simp only [peek, Source.next, scanned]
            by_cases final : t = .eof
            · subst final
              obtain ⟨rfl, -, rfl⟩ := skip_eq_nil_of_scan_eq_eof ending text rest scanned
              exact .final (by rw [items_none, scanAll_of_scan_eof _ text [] scanned]) rfl
            · refine .token t rest final ?_ (Nat.le_of_lt shorter)
              rw [items_none, scanAll_of_scan_ok ending text rest t scanned final]

def size (l : Lookahead) : Nat :=
  2 * l.source.chars.length + l.slot.toList.length

theorem size_consume_lt (l rest : Lookahead) (t : Token) (peeked : l.peek = (.ok t, rest))
    (inner : t ≠ .eof) : rest.consume.size < l.size := by
  obtain ⟨slot, text, ending⟩ := l
  cases slot with
  | some first =>
      simp only [peek, Prod.mk.injEq] at peeked
      obtain ⟨-, rfl⟩ := peeked
      simp [size, consume]
  | none =>
      rcases scanned : scan ending text with ⟨item, left⟩
      have nonempty : text ≠ [] := by
        rintro rfl
        have := Scan.lookAt_eq_ok ending [] (.ok .eof) t
        cases item <;> simp_all [peek, Source.next]
      have shorter := Scan.scan_rest_length_lt ending text nonempty
      rw [scanned] at shorter
      cases item with
      | error cause => simp [peek, Source.next, scanned] at peeked
      | ok first =>
          simp only [peek, Source.next, scanned, Prod.mk.injEq] at peeked
          obtain ⟨-, rfl⟩ := peeked
          simp only [size, consume, Option.toList_none, List.length_nil] at shorter ⊢
          omega

def run (state : State) (l : Lookahead) : Reply × Lookahead :=
  match _peeked : l.peek with
  | (.error cause, rest) => (.error (.lexical cause), rest)
  | (.ok token, rest) =>
      if _inner : token = .eof then
        (replyAtEnd .finished state, if state.takesEnd then rest.consume else rest)
      else
        match step state token with
        | .next state => run state rest.consume
        | .accept term => (.statement term, rest.consume)
        | .reject error => (.error error, if error.keepsToken then rest else rest.consume)
termination_by l.size
decreasing_by exact size_consume_lt l rest token _peeked _inner

structure Reads (state : State) (l : Lookahead) (result : Reply × Lookahead) : Prop where
  run_eq : Parser.run l.source.ending state l.items = (result.1, result.2.items)
  sound : result.2.Sound
  ending : result.2.source.ending = l.source.ending
  le : result.2.source.chars.length ≤ l.source.chars.length
  lt : ∀ cause, result.1 = .error (.lexical cause) → l.source.ending = .finished →
    result.2.source.chars.length < l.source.chars.length

theorem sound_consume (l : Lookahead) : l.consume.Sound := by
  simp [Sound, consume]

/-- The parser reads what the machine reads from the items to come, and a lexical error takes at
least one rune. -/
theorem reads_run (state : State) (l : Lookahead) (sound : l.Sound) :
    Reads state l (l.run state) := by
  have looks := looks_peek l sound
  rw [run]
  split
  · rename_i cause rest peeked
    rw [peeked] at looks
    cases looks with
    | lexical _ text items lt =>
        exact ⟨by rw [items]; rfl, by simp [Sound], rfl, Nat.le_of_lt lt, fun _ _ _ => lt⟩
    | failed reason items failed =>
        refine ⟨?_, by simp [Sound], failed.symm, Nat.zero_le _, by simp [failed]⟩
        rw [items, failed]
        simp [Parser.run, replyAtEnd]
  · rename_i token rest peeked
    have smaller := size_consume_lt l rest token peeked
    rw [peeked] at looks
    cases looks with
    | final items finished =>
        have quiet (cause : LexError) := replyAtEnd_finished_ne_lexical state cause
        rw [dif_pos rfl]
        -- the end of input, if it is taken, is found again by the next request
        cases state.takesEnd <;>
          exact ⟨by simp [items, finished, Parser.run, consume], by simp [Sound, consume],
            finished.symm, Nat.zero_le _,
            fun cause same => absurd same (quiet cause)⟩
    | token _ text inner items le =>
        -- once the token is taken, the items to come are those that the machine goes on with
        have taken : (consume ⟨some token, text, l.source.ending⟩).items =
            scanAll l.source.ending text := rfl
        rw [dif_neg inner]
        split
        · rename_i next stepped
          have read := reads_run next (consume ⟨some token, text, l.source.ending⟩)
            (sound_consume _)
          refine ⟨?_, read.sound, read.ending, Nat.le_trans read.le le,
            fun cause same finished => Nat.lt_of_lt_of_le (read.lt cause same finished) le⟩
          rw [items, Parser.run, stepped, ← taken]
          exact read.run_eq
        · rename_i term stepped
          exact ⟨by rw [items, Parser.run, stepped, taken], sound_consume _, rfl, le, by simp⟩
        · rename_i error stepped
          have quiet (cause : LexError) : error ≠ .lexical cause := by
            rintro rfl
            exact step_ne_reject_lexical state token cause stepped
          have kept := items_some token inner text l.source.ending
          have run_eq : Parser.run l.source.ending state l.items =
              (.error error, if error.keepsToken then .ok token :: scanAll l.source.ending text
                else scanAll l.source.ending text) := by
            rw [items, Parser.run, stepped]
          cases keeps : error.keepsToken with
          | true =>
              exact ⟨by simp [run_eq, keeps, kept], by simp [Sound, inner], rfl, le,
                by simp [quiet]⟩
          | false =>
              exact ⟨by simp [run_eq, keeps, taken], sound_consume _, rfl, le, by simp [quiet]⟩
termination_by l.size
decreasing_by exact smaller inner

theorem slot_run_of_reject (state : State) (l : Lookahead) (sound : l.Sound) (t : Token)
    (rest : List Item) (items : l.items = .ok t :: rest) (error : ParseError)
    (rejected : step state t = .reject error) (keeps : error.keepsToken = true) :
    (l.run state).2.slot = some t := by
  have looks := looks_peek l sound
  rw [run]
  split
  · rename_i cause left peeked
    rw [peeked] at looks
    cases looks <;> simp_all
  · rename_i token left peeked
    rw [peeked] at looks
    cases looks with
    | final none finished => simp [none] at items
    | token _ text inner first le =>
        obtain ⟨rfl, -⟩ : token = t ∧ _ := by simpa [first] using items
        simp [inner, rejected, keeps]

def reply (l : Lookahead) : Reply :=
  (l.run .initial).1

def after (l : Lookahead) : Nat → Lookahead
  | 0 => l
  | count + 1 => ((l.after count).run .initial).2

section Requests
variable (source : Source) (count : Nat)

theorem sound_after : (after { source := source } count).Sound := by
  induction count with
  | zero => simp [after, Sound]
  | succ count ih => exact (reads_run .initial _ ih).sound

@[simp] theorem ending_after :
    (after { source := source } count).source.ending = source.ending := by
  induction count with
  | zero => rfl
  | succ count ih => exact (reads_run .initial _ (sound_after source count)).ending.trans ih

theorem items_after :
    (after { source := source } count).items = (source.stream.after count).items := by
  induction count with
  | zero => rfl
  | succ count ih =>
      have read := (reads_run .initial _ (sound_after source count)).run_eq
      rw [ih, ending_after] at read
      simp only [after, TokenStream.after, TokenStream.statement_eq, TokenStream.ending_after,
        Source.stream] at read ⊢
      rw [read]

theorem reply_after :
    (after { source := source } count).reply = (source.stream.after count).statement.1 := by
  have read := (reads_run .initial _ (sound_after source count)).run_eq
  rw [items_after, ending_after] at read
  simp only [reply, TokenStream.statement_eq, TokenStream.ending_after, Source.stream] at read ⊢
  rw [read]

end Requests

end Lookahead

end Abacus
