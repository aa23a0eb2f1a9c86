import Abacus.Proofs.Token.ReadFailure
import Abacus.Session

/-!
Runs that end in a read failure. Main statement: a failure to read on after a script takes nothing
back and lets nothing more be run, and it is never taken for the end of the script.
-/
namespace Abacus

namespace Parser

theorem stepOperand_ne_accept (blocks : List Term) (frames : List Frame) (t : Token) (term : Term) :
    stepOperand blocks frames t ≠ .accept term := by
  unfold stepOperand
  split
  case h_5 => split <;> simp
  case h_6 => split <;> simp
  all_goals simp

theorem eq_semicolon_of_stepClose (blocks : List Term) (frames : List Frame) (operand : Term)
    (t : Token) (term : Term) (accepted : stepClose blocks frames operand t = .accept term) :
    t = .symbol .semicolon := by
  unfold stepClose at accepted
  split at accepted
  · split at accepted
    · assumption
    · simp at accepted
  · split at accepted <;> simp at accepted

theorem exists_ends_of_step (state : State) (t : Token) (term : Term)
    (accepted : step state t = .accept term) :
    ∃ s : Symbol, s.ends = true ∧ t = .symbol s := by
  unfold step at accepted
  split at accepted
  · unfold stepStart at accepted
    split at accepted
    · simp at accepted
    · exact ⟨.semicolon, rfl, rfl⟩
    · exact ⟨.closeBrace, rfl, rfl⟩
    · exact absurd accepted (stepOperand_ne_accept _ _ _ _)
  · exact absurd accepted (stepOperand_ne_accept _ _ _ _)
  · unfold stepOperator at accepted
    split at accepted
    · simp at accepted
    · split at accepted
      · simp at accepted
      · exact ⟨.semicolon, rfl, eq_semicolon_of_stepClose _ _ _ _ term accepted⟩
    · exact ⟨.semicolon, rfl, eq_semicolon_of_stepClose _ _ _ _ term accepted⟩

end Parser

namespace Script
open Abacus.Parser

theorem read_append_readFailure (reason : String) (state : State) (items : List Item) :
    read (.failed reason) state (items ++ [.error (.readFailure reason)]) =
      read (.failed reason) state items := by
  induction items generalizing state with
  | nil => rfl
  | cons item items ih =>
      cases item with
      | error cause => rfl
      | ok t => simp only [List.cons_append, read, ih]

theorem read_scanAll_failed (reason : String) (state : State) (text : List Char) (items : List Item)
    (failing : scanAll (.failed reason) text = items ∨
      scanAll (.failed reason) text = items ++ [.error (.readFailure reason)]) :
    read (.failed reason) state (scanAll (.failed reason) text) =
      read (.failed reason) state items := by
  rcases failing with same | same
  · rw [same]
  · rw [same, read_append_readFailure]

theorem statements_read_singleton (state : State) (item : Item)
    (inner : ∀ s : Symbol, s.ends = true → item ≠ .ok (.symbol s)) :
    (read .finished state [item]).statements = [] := by
  have none (state : State) : (read .finished state []).statements = [] := by
    simp only [read, replyAtEnd]
    split <;> rfl
  cases item with
  | error cause => rfl
  | ok t =>
      simp only [read]
      split
      · exact none _
      · rename_i term accepted
        obtain ⟨s, ends, rfl⟩ := exists_ends_of_step state t term accepted
        exact absurd rfl (inner s ends)
      · rfl

/-- A script that is cut off has the same statements, and the same error if that comes before the
cut. -/
theorem read_failed (reason : String) (state : State) (items : List Item) (last : Option Item)
    (inner : ∀ s : Symbol, s.ends = true → last ≠ some (.ok (.symbol s))) :
    let failing := read (.failed reason) state items
    let normal := read .finished state (items ++ last.toList)
    failing.statements = normal.statements ∧ failing.error ≠ none ∧
      (failing.error = normal.error ∨ failing.error = some (.lexical (.readFailure reason))) := by
  induction items generalizing state with
  | nil =>
      refine ⟨?_, by simp [read, replyAtEnd, ofReply], .inr rfl⟩
      cases last with
      | none =>
          simp only [read, replyAtEnd, Option.toList_none, List.append_nil]
          split <;> rfl
      | some item =>
          exact (statements_read_singleton state item fun s ends same =>
            inner s ends (by rw [same])).symm
  | cons item items ih =>
      cases item with
      | error cause => exact ⟨rfl, by simp [read], .inl rfl⟩
      | ok t =>
          simp only [List.cons_append, read]
          split
          · exact ih _
          · obtain ⟨statements, fails, error⟩ := ih .initial
            exact ⟨by simp only [statements], fails, error⟩
          · exact ⟨rfl, by simp, .inl rfl⟩

end Script

theorem take_append_replicate_succ {α : Type} (count : Nat) (items : List α) (item : α) :
    (items ++ item :: List.replicate count item).take count =
      (items ++ List.replicate count item).take count := by
  rw [← List.replicate_succ, List.take_append, List.take_append, List.take_replicate,
    List.take_replicate, Nat.min_eq_left (by omega), Nat.min_eq_left (by omega)]

theorem Session.runScript_failed (session : Session) (failing normal : Script) (cause : ParseError)
    (statements : failing.statements = normal.statements) (fails : failing.error ≠ none)
    (error : failing.error = normal.error ∨ failing.error = some cause) :
    (session.runScript failing).out = (session.runScript normal).out ∧
      (session.runScript failing).session = (session.runScript normal).session ∧
      (session.runScript failing).error ≠ none ∧
      ((session.runScript failing).error = (session.runScript normal).error ∨
        (session.runScript failing).error = some (.parse cause)) := by
  simp only [runScript, statements, Run.out, true_and]
  cases (session.runTerms normal.statements).error with
  | some e => exact ⟨by simp, .inl rfl⟩
  | none =>
      rcases error with same | is_cause
      · exact ⟨by simpa using fails, .inl (by simp [same])⟩
      · exact ⟨by simpa using fails, .inr (by simp [is_cause])⟩

/-- A script behind which reading fails writes what the script writes and leaves the same session.
It always ends in an error, which is that of the script or the read failure. Its tokens are those of
the script up to a place where, but for one last item, the script ends, and from there on every
request gives the read failure. -/
theorem Session.run_failed (session : Session) (bytes : List UInt8) (reason : String) :
    let normal := session.run (.ofBytes bytes)
    let failing := session.run (.ofBytes bytes (.failed reason))
    failing.out = normal.out ∧ failing.session = normal.session ∧ failing.error ≠ none ∧
      (failing.error = normal.error ∨
        failing.error = some (.parse (.lexical (.readFailure reason)))) ∧
      ∃ (items : List Item) (last : Option Item),
        (∀ item ∈ items ++ last.toList, item ≠ .ok .eof) ∧
        ∀ count,
          Lookahead.calls (List.replicate count .take) { source := .ofBytes bytes } =
            ((items ++ last.toList ++ List.replicate count (.ok .eof : Item)).take count).map some ∧
          Lookahead.calls (List.replicate count .take)
              { source := .ofBytes bytes (.failed reason) } =
            ((items ++ List.replicate count (.error (.readFailure reason) : Item)).take count).map
              some := by
  obtain ⟨items, last, normal_items, failing_items, inner, -⟩ :=
    scanAll_failed reason (Text.Utf8.decode bytes)
  obtain ⟨statements, fails, error⟩ := Script.read_failed reason .initial items last inner
  have normal_script : Script.ofSource (.ofBytes bytes) =
      .read .finished .initial (items ++ last.toList) := by
    rw [← normal_items]
    rfl
  have failing_script : Script.ofSource (.ofBytes bytes (.failed reason)) =
      .read (.failed reason) .initial items :=
    Script.read_scanAll_failed reason .initial _ items (failing_items.imp_left And.left)
  obtain ⟨out, after, ended, cause⟩ :=
    session.runScript_failed _ _ (.lexical (.readFailure reason)) statements fails error
  intro normal failing
  simp only [normal, failing, run, normal_script, failing_script]
  refine ⟨out, after, ended, cause, items, last, ?_, ?_⟩
  · intro item member
    rw [← normal_items] at member
    exact (exists_scan_of_mem_scanAll _ _ item member).1
  · intro count
    rw [Lookahead.calls_replicate_take, Lookahead.calls_replicate_take]
    simp only [Source.stream, Source.ofBytes, normal_items]
    refine ⟨rfl, ?_⟩
    rcases failing_items with ⟨same, -⟩ | same
    · rw [same]
      rfl
    · rw [same, List.append_assoc, List.singleton_append, ← take_append_replicate_succ]
      rfl

end Abacus
