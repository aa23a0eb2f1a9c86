import Abacus.Proofs.Parser.Completeness
import Abacus.Proofs.Text.Utf8
import Abacus.Proofs.Token.Separation
import Abacus.Session

/-!
Scripts one after another. Main statement: a script that runs without an error and another one
behind a line feed run as the one and then the other in the same session.
-/
namespace Abacus

namespace Script
open Abacus.Parser

def append (first second : Script) : Script :=
  ⟨first.statements ++ second.statements, first.error <|> second.error⟩

theorem exists_tokens_of_read (ending : Ending) (state : State) (items : List Item)
    (complete : (read ending state items).error = none) :
    ∃ tokens : List Token, items = tokens.map .ok := by
  induction items generalizing state with
  | nil => exact ⟨[], rfl⟩
  | cons item items ih =>
      cases item with
      | error cause => simp [read] at complete
      | ok t =>
          simp only [read] at complete
          split at complete
          · obtain ⟨tokens, rfl⟩ := ih _ complete
            exact ⟨t :: tokens, rfl⟩
          · obtain ⟨tokens, rfl⟩ := ih _ complete
            exact ⟨t :: tokens, rfl⟩
          · simp at complete

theorem read_append (ending : Ending) (state : State) (items others : List Item)
    (complete : (read .finished state items).error = none) :
    read ending state (items ++ others) =
      (read .finished state items).append (read ending .initial others) := by
  induction items generalizing state with
  | nil =>
      obtain rfl := eq_initial_of_read_nil state complete
      simp [append, read, replyAtEnd, endError?, State.initial, ofReply]
  | cons item items ih =>
      cases item with
      | error cause => simp [read] at complete
      | ok t =>
          simp only [List.cons_append, read] at complete ⊢
          split
          · rename_i next step_eq
            simp only [step_eq] at complete
            exact ih next complete
          · rename_i term step_eq
            simp only [step_eq] at complete
            rw [ih .initial complete]
            simp [append]
          · rename_i step_eq
            simp [step_eq] at complete

theorem ofSource_append_newline (first second : List UInt8)
    (complete : (ofSource (.ofBytes first)).error = none) :
    ofSource (.ofBytes (first ++ 0x0a :: second)) =
      (ofSource (.ofBytes first)).append (ofSource (.ofBytes second)) := by
  have decoded := Text.Utf8.decode_append_ascii 0x0a (by decide) first second
  obtain ⟨tokens, items_eq⟩ := exists_tokens_of_read _ _ _ complete
  have joint := scanAll_append_newline (Text.Utf8.decode first) (Text.Utf8.decode second) tokens
    items_eq
  simp only [ofSource, Source.stream, Source.ofBytes] at complete items_eq ⊢
  rw [decoded, show Char.ofNat (0x0a : UInt8).toNat = '\n' from rfl, joint, ← items_eq]
  exact read_append .finished .initial _ _ complete

end Script

def Run.append (first second : Run) : Run :=
  ⟨first.values ++ second.values, second.error, second.session⟩

namespace Session

theorem runTerms_append (session : Session) (terms others : List Term)
    (complete : (session.runTerms terms).error = none) :
    session.runTerms (terms ++ others) =
      (session.runTerms terms).append ((session.runTerms terms).session.runTerms others) := by
  induction terms generalizing session with
  | nil => rfl
  | cons term terms ih =>
      cases term with
      | empty => exact ih session complete
      | node label left right =>
          simp only [List.cons_append, runTerms] at complete ⊢
          split
          · rename_i value next evaluated
            simp only [evaluated] at complete
            rw [ih next complete]
            rfl
          · rename_i evaluated
            simp [evaluated] at complete

theorem runScript_error_eq_none (session : Session) (script : Script) :
    (session.runScript script).error = none ↔
      (session.runTerms script.statements).error = none ∧ script.error = none := by
  simp only [runScript]
  cases (session.runTerms script.statements).error <;> simp

theorem runScript_append (session : Session) (first second : Script)
    (complete : (session.runScript first).error = none) :
    session.runScript (first.append second) =
      (session.runScript first).append
        ((session.runScript first).session.runScript second) := by
  obtain ⟨terms_complete, script_complete⟩ := (session.runScript_error_eq_none first).mp complete
  simp only [runScript, Script.append, script_complete,
    session.runTerms_append first.statements second.statements terms_complete, Run.append]
  rfl

end Session

theorem Run.out_append (first second : Run) :
    (first.append second).out = first.out ++ second.out := by
  simp [out, append]

theorem Session.run_newline (session : Session) (first second : List UInt8)
    (complete : (session.run (.ofBytes first)).error = none) :
    session.run (.ofBytes (first ++ 0x0a :: second)) =
      (session.run (.ofBytes first)).append
        ((session.run (.ofBytes first)).session.run (.ofBytes second)) := by
  have parsed := ((session.runScript_error_eq_none _).mp complete).2
  unfold run
  rw [Script.ofSource_append_newline first second parsed]
  exact session.runScript_append _ _ complete

/-- Two scripts with a line feed between them run as the one and then the other, if the first runs
without an error: they write the same, end in the same error, and leave the same session. -/
theorem Session.run_append_newline (session : Session) (first second : List UInt8)
    (complete : (session.run (.ofBytes first)).error = none) :
    let before := session.run (.ofBytes first)
    let after := before.session.run (.ofBytes second)
    let joint := session.run (.ofBytes (first ++ 0x0a :: second))
    joint.out = before.out ++ after.out ∧ joint.error = after.error ∧
      joint.session = after.session := by
  intro before after joint
  simp only [joint, session.run_newline first second complete]
  exact ⟨Run.out_append before after, rfl, rfl⟩

/-- The first script ends in a comment, the second has an error. -/
theorem Session.run_append_newline_comment :
    ((({} : Session).run (.ofBytes "x=4;//".toUTF8.toList)).error = none) ∧
      (({} : Session).run (.ofBytes ("x=4;//".toUTF8.toList ++ 0x0a :: "x*3;+".toUTF8.toList))).out =
        "4\n12\n" := by
  have complete : (({} : Session).run (.ofBytes "x=4;//".toUTF8.toList)).error = none := by
    decide +kernel
  refine ⟨complete, (run_append_newline {} _ _ complete).1.trans ?_⟩
  decide +kernel

end Abacus
