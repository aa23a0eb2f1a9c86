import Abacus.Proofs.Eval.Frame
import Abacus.Proofs.Session.Concatenation
import Abacus.Proofs.Session.ReadFailure

/-!
Scripts that go on. Main statement: more text behind a script takes back nothing that the script has
written or bound, and an error that is met without looking past the script stays what it is.
-/
namespace Abacus

section Bindings

theorem Env.names_subset_insert (name : String) (value : Value)
    (bindings : List (String × Value)) :
    bindings.map (·.1) ⊆ (insert name value bindings).map (·.1) := by
  induction bindings with
  | nil => simp
  | cons binding rest ih =>
      obtain ⟨first, old⟩ := binding
      simp only [insert]
      split
      · exact List.subset_cons_self _ _
      · split
        · rename_i same
          simp [same]
        · exact List.cons_subset_cons _ ih

theorem Env.names_subset_setAll (env : Env) (updates : List (String × Value)) :
    env.names ⊆ (env.setAll updates).names := by
  induction updates generalizing env with
  | nil => exact List.Subset.refl _
  | cons update updates ih =>
      obtain ⟨name, value⟩ := update
      exact List.Subset.trans (names_subset_insert name value env.bindings)
        (ih (env.set name value))

theorem Term.names_subset_eval (t : Term) (env : Env) : env.names ⊆ (t.eval env).2.names := by
  obtain ⟨updates, -, after⟩ := t.exists_updates_of_eval env
  rw [after]
  exact env.names_subset_setAll updates

end Bindings

namespace Script
open Abacus.Parser

/-- What is read of a text that is cut off is what any longer text begins with. The longer text can
only have more to it where reading on is what failed. -/
theorem read_of_failed (reason : String) (ending : Ending) (state : State)
    (items others : List Item) :
    let cut := read (.failed reason) state items
    let joint := read ending state (items ++ others)
    cut.statements <+: joint.statements ∧
      (cut.error = some (.lexical (.readFailure reason)) ∨ joint = cut) := by
  induction items generalizing state with
  | nil => exact ⟨List.nil_prefix, .inl rfl⟩
  | cons item items ih =>
      cases item with
      | error cause => exact ⟨List.prefix_refl _, .inr rfl⟩
      | ok t =>
          simp only [List.cons_append, read]
          split
          · exact ih _
          · obtain ⟨statements, error⟩ := ih .initial
            refine ⟨List.cons_prefix_cons.mpr ⟨rfl, statements⟩, error.imp_right ?_⟩
            intro same
            rw [same]
          · exact ⟨List.prefix_refl _, .inr rfl⟩

theorem ofSource_append (reason : String) (ending : Ending) (text more : List Char) :
    let first := ofSource ⟨text, .finished⟩
    let cut := ofSource ⟨text, .failed reason⟩
    let joint := ofSource ⟨text ++ more, ending⟩
    first.statements = cut.statements ∧ cut.statements <+: joint.statements ∧
      (cut.error = some (.lexical (.readFailure reason)) ∨ joint = cut) := by
  obtain ⟨items, last, normal, failing, inner, begins⟩ := scanAll_failed reason text
  obtain ⟨others, joint_items⟩ := begins ending more
  have cut_items := read_scanAll_failed reason .initial text items (failing.imp_left And.left)
  obtain ⟨statements, -, -⟩ := read_failed reason .initial items last inner
  simp only [ofSource, Source.stream, normal, cut_items, ← joint_items]
  exact ⟨statements.symm, read_of_failed reason ending .initial items others⟩

end Script

/-- A run that another run begins with: the other writes the same and perhaps more, and binds the
same names and perhaps more. -/
structure Run.Begins (first joint : Run) : Prop where
  values : first.values <+: joint.values
  names : first.session.env.names ⊆ joint.session.env.names

theorem Run.Begins.out {first joint : Run} (begins : first.Begins joint) :
    ∃ later, joint.out = first.out ++ later := by
  obtain ⟨values, same⟩ := begins.values
  exact ⟨Run.out ⟨values, none, joint.session⟩, by simp [Run.out, ← same]⟩

namespace Session

theorem names_subset_evaluate (session : Session) (term : Term) :
    session.env.names ⊆ (session.evaluate term).2.env.names := by
  have kept := term.names_subset_eval session.env
  rcases evaluated : term.eval session.env with ⟨outcome, env⟩
  rw [evaluated] at kept
  simp only [evaluate, evaluated]
  generalize (if session.verify = true then term.violations else []) = violations
  split
  · cases outcome <;> exact kept
  · exact List.Subset.refl _

theorem names_subset_runTerms (session : Session) (terms : List Term) :
    session.env.names ⊆ (session.runTerms terms).session.env.names := by
  induction terms generalizing session with
  | nil => exact List.Subset.refl _
  | cons term terms ih =>
      cases term with
      | empty => exact ih session
      | node label left right =>
          have kept := session.names_subset_evaluate (.node label left right)
          simp only [runTerms]
          split
          · rename_i value next evaluated
            rw [evaluated] at kept
            exact List.Subset.trans kept (ih next)
          · rename_i e next evaluated
            rwa [evaluated] at kept

theorem runTerms_append_of_error (session : Session) (terms others : List Term)
    (failed : (session.runTerms terms).error ≠ none) :
    session.runTerms (terms ++ others) = session.runTerms terms := by
  induction terms generalizing session with
  | nil => simp [runTerms] at failed
  | cons term terms ih =>
      cases term with
      | empty => exact ih session failed
      | node label left right =>
          simp only [List.cons_append, runTerms] at failed ⊢
          split
          · rename_i value next evaluated
            simp only [evaluated] at failed
            rw [ih next failed]
          · rfl

theorem begins_runTerms_append (session : Session) (terms others : List Term) :
    (session.runTerms terms).Begins (session.runTerms (terms ++ others)) := by
  by_cases complete : (session.runTerms terms).error = none
  · rw [session.runTerms_append terms others complete]
    exact ⟨List.prefix_append _ _, names_subset_runTerms _ others⟩
  · rw [session.runTerms_append_of_error terms others complete]
    exact ⟨List.prefix_refl _, List.Subset.refl _⟩

theorem begins_runScript (session : Session) (first joint : Script)
    (statements : first.statements <+: joint.statements) :
    (session.runScript first).Begins (session.runScript joint) := by
  obtain ⟨others, same⟩ := statements
  obtain ⟨values, names⟩ := session.begins_runTerms_append first.statements others
  rw [same] at values names
  exact ⟨values, names⟩

/-- A run of a script that is cut off ends in the failure to read on, or longer ones run alike. -/
theorem runScript_of_failed (session : Session) (cut joint : Script) (cause : ParseError)
    (statements : cut.statements <+: joint.statements)
    (error : cut.error = some cause ∨ joint = cut)
    (other : (session.runScript cut).error ≠ some (.parse cause)) :
    session.runScript joint = session.runScript cut := by
  rcases error with failed | rfl
  · -- The run has met an error of its own, so it does not get to where the script is cut off.
    have early : (session.runTerms cut.statements).error ≠ none := by
      intro complete
      simp [runScript, complete, failed] at other
    obtain ⟨others, same⟩ := statements
    simp only [runScript, ← same, session.runTerms_append_of_error _ others early]
    cases met : (session.runTerms cut.statements).error with
    | none => exact absurd met early
    | some e => rfl
  · rfl

end Session

theorem isA_report_readFailure (reason : String) :
    (RunError.parse (.lexical (.readFailure reason))).report.isA
      (Family.lexical .readFailure).pattern = true := by
  simp [RunError.report, ParseError.report, LexError.report, Family.pattern, Report.isA,
    Report.fits]

open Text.Utf8 in
/-- The output of a script is what the output of any longer script begins with, and every name that
it binds is bound by the longer script. If a script cut off by a read failure ends in an error that
is not a read failure, every longer script ends in that error, with the same output and session. -/
theorem Session.run_append (session : Session) (first second : String) :
    let before := session.run (.ofBytes (encode first))
    let joint := session.run (.ofBytes (encode first ++ encode second))
    (∃ later, joint.out = before.out ++ later) ∧
      before.session.env.names ⊆ joint.session.env.names ∧
      ∀ (reason : String) (e : RunError),
        let cut := session.run (.ofBytes (encode first) (.failed reason))
        cut.error = some e → e.report.isA (Family.lexical .readFailure).pattern = false →
          joint.error = some e ∧ joint.out = cut.out ∧ joint.session = cut.session := by
  intro before joint
  have scripts (reason : String) :=
    Script.ofSource_append reason .finished first.toList second.toList
  simp only [before, joint, run, Source.ofBytes, decode_encode, decode_encode_append]
  refine ⟨?_, ?_, ?_⟩
  · obtain ⟨same, statements, -⟩ := scripts ""
    exact (session.begins_runScript _ _ (same ▸ statements)).out
  · obtain ⟨same, statements, -⟩ := scripts ""
    exact (session.begins_runScript _ _ (same ▸ statements)).names
  · intro reason e ended other
    obtain ⟨-, statements, error⟩ := scripts reason
    have runs := session.runScript_of_failed _ _ _ statements error (by
      rw [ended]
      rintro ⟨⟩
      simp [isA_report_readFailure] at other)
    exact ⟨runs ▸ ended, by rw [runs], by rw [runs]⟩

open Text.Utf8 in
/-- The script is cut off inside a name, behind a division by zero and two bindings. -/
theorem Session.run_append_division :
    let cut := ({} : Session).run (.ofBytes (encode "x=4;y=x;x/0;x=fo") (.failed "closed"))
    let joint := ({} : Session).run (.ofBytes (encode "x=4;y=x;x/0;x=fo" ++ encode "ur;/*"))
    cut.error = some (.eval (.divisionByZero .div)) ∧
      (RunError.eval (.divisionByZero .div)).report.isA (Family.lexical .readFailure).pattern =
        false ∧
      joint.error = some (.eval (.divisionByZero .div)) ∧ joint.out = cut.out ∧
      joint.session = cut.session ∧ cut.out = "4\n4\n" := by
  intro cut joint
  have ended : cut.error = some (.eval (.divisionByZero .div)) := by decide +kernel
  have other : (RunError.eval (.divisionByZero .div)).report.isA
      (Family.lexical .readFailure).pattern = false := by decide +kernel
  obtain ⟨-, -, same⟩ := run_append {} "x=4;y=x;x/0;x=fo" "ur;/*"
  obtain ⟨error, out, session⟩ := same "closed" _ ended other
  exact ⟨ended, other, error, out, session, by decide +kernel⟩

end Abacus
