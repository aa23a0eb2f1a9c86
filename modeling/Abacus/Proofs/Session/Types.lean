import Abacus.Proofs.Eval.Types
import Abacus.Proofs.Parser.Shape

/-!
Integers and floats in sessions. Main statement: the type of a result does not depend on values, and
a session that starts with integers and reads no float literal stays with integers.
-/
namespace Abacus

def Token.isFloat : Token → Bool
  | .float _ _ => true
  | _ => false

def Source.FloatFree (source : Source) : Prop :=
  ∀ t ∈ source.stream.items.filterMap Except.toOption, t.isFloat = false

instance (source : Source) : Decidable source.FloatFree :=
  inferInstanceAs
    (Decidable (∀ t ∈ source.stream.items.filterMap Except.toOption, t.isFloat = false))

section Terms

theorem Grammar.Phrase.floatFree_term {c : Category} (x : Phrase c)
    (free : ∀ t ∈ x.tokens, t.isFloat = false) : x.term.FloatFree := by
  induction x with
  | integer | name => exact (Tree.all_node _ _ _ _).mpr ⟨rfl, Tree.all_empty _, Tree.all_empty _⟩
  | float value text number valid => simp [tokens, Token.isFloat] at free
  | paren inner ih => exact ih fun t member => free t (by simp [tokens, member])
  | plus operand ih => exact ih fun t member => free t (by simp [tokens, member])
  | lone _ inner ih => exact ih free
  | sign op operand ih =>
      have operand_free := ih fun t member => free t (by simp [tokens, member])
      exact (Tree.all_node _ _ _ _).mpr ⟨rfl, operand_free, Tree.all_empty _⟩
  | binary s op _ left right ih_left ih_right =>
      have left_free := ih_left fun t member => free t (by simp [tokens, member])
      have right_free := ih_right fun t member => free t (by simp [tokens, member])
      exact (Tree.all_node _ _ _ _).mpr ⟨rfl, left_free, right_free⟩
  | assign left right ih_left ih_right =>
      have left_free := ih_left fun t member => free t (by simp [tokens, member])
      have right_free := ih_right fun t member => free t (by simp [tokens, member])
      exact (Tree.all_node _ _ _ _).mpr ⟨rfl, left_free, right_free⟩

theorem Grammar.Statement.floatFree_term (x : Statement)
    (free : ∀ t ∈ x.tokens, t.isFloat = false) : x.term.FloatFree := by
  cases nonempty : x.term.isEmpty with
  | true =>
      generalize x.term = t at nonempty ⊢
      cases t with
      | empty => exact Tree.all_empty _
      | node label left right => simp [Tree.isEmpty] at nonempty
  | false =>
      refine term_of_closed Term.FloatFree _ ?_ (fun x => x.floatFree_term) x free nonempty
      intro first second first_free second_free
      exact (Tree.all_node _ _ _ _).mpr ⟨rfl, first_free, second_free⟩

theorem Script.floatFree_statements (source : Source) (free : source.FloatFree) :
    ∀ t ∈ (ofSource source).statements, t.FloatFree := by
  intro term member
  obtain ⟨statement, rfl, used⟩ :=
    Parser.exists_statement_of_mem_read _ .initial [] (.start []) _ term member
  refine statement.floatFree_term fun t found => free t ?_
  have read := (used t found).resolve_left List.not_mem_nil
  exact List.mem_filterMap.mpr ⟨.ok t, read, rfl⟩

end Terms

structure Run.Integral (run : Run) : Prop where
  values : ∀ value ∈ run.values, value.isFloat = false
  env : run.session.env.Integral

namespace Session

theorem integral_evaluate (session : Session) (term : Term) (free : term.FloatFree)
    (start : session.env.Integral) :
    (session.evaluate term).2.env.Integral ∧
      ∀ value, (session.evaluate term).1 = .ok value → value.isFloat = false := by
  obtain ⟨kept, integer⟩ := term.keepsIntegers_eval free session.env start
  simp only [evaluate]
  generalize (if session.verify then term.violations else []) = violations
  split
  · split
    · rename_i value env evaluated
      rw [evaluated] at kept integer
      refine ⟨kept, ?_⟩
      rintro _ ⟨⟩
      exact integer value rfl
    · rename_i e env evaluated
      rw [evaluated] at kept
      exact ⟨kept, by simp⟩
  · exact ⟨start, by simp⟩

theorem integral_runTerms (session : Session) (terms : List Term)
    (free : ∀ t ∈ terms, t.FloatFree) (start : session.env.Integral) :
    (session.runTerms terms).Integral := by
  induction terms generalizing session with
  | nil => exact ⟨by simp [runTerms], start⟩
  | cons term terms ih =>
      have rest := fun t member => free t (.tail term member)
      cases term with
      | empty => exact ih session rest start
      | node label left right =>
          obtain ⟨kept, integer⟩ := session.integral_evaluate _ (free _ List.mem_cons_self) start
          simp only [runTerms]
          split
          · rename_i value next evaluated
            rw [evaluated] at kept integer
            have later := ih next rest kept
            exact ⟨List.forall_mem_cons.mpr ⟨integer value rfl, later.values⟩, later.env⟩
          · rename_i e next evaluated
            rw [evaluated] at kept
            exact ⟨by simp, kept⟩

theorem integral_run (session : Session) (source : Source) (free : source.FloatFree)
    (start : session.env.Integral) : (session.run source).Integral := by
  have terms := Script.floatFree_statements source free
  obtain ⟨values, env⟩ := session.integral_runTerms _ terms start
  exact ⟨values, env⟩

def runAll : Session → List Source → List Run × Session
  | session, [] => ([], session)
  | session, source :: sources =>
      let run := session.run source
      let rest := run.session.runAll sources
      (run :: rest.1, rest.2)

theorem integral_runAll (session : Session) (sources : List Source)
    (free : ∀ source ∈ sources, source.FloatFree) (start : session.env.Integral) :
    (∀ run ∈ (session.runAll sources).1, run.Integral) ∧
      (session.runAll sources).2.env.Integral := by
  induction sources generalizing session with
  | nil => exact ⟨by simp [runAll], start⟩
  | cons source sources ih =>
      have first := session.integral_run source (free source List.mem_cons_self) start
      obtain ⟨later, last⟩ :=
        ih (session.run source).session (fun s member => free s (.tail source member)) first.env
      exact ⟨List.forall_mem_cons.mpr ⟨first, later⟩, last⟩

end Session

inductive Step where
  | script (source : Source)
  | line (bytes : List UInt8)
  | dialogue (prompt : String) (bytes : List UInt8) (ending : Ending)

namespace Step

def out (session : Session) : Step → String
  | .script source => (session.run source).out
  | .line bytes => (session.runLine bytes).out
  | .dialogue prompt bytes ending => (session.loop prompt bytes ending).out

def after (session : Session) : Step → Session
  | .script source => (session.run source).session
  | .line bytes => (session.runLine bytes).session
  | .dialogue prompt bytes ending => (session.loop prompt bytes ending).session

def answered (lines : List (List UInt8)) : List (List UInt8) :=
  (lines.takeWhile fun line =>
    line.length < Text.Lines.limit && !Session.isExit (Text.Lines.dropReturn line)).map
      Text.Lines.dropReturn

def sources : Step → List Source
  | .script source => [source]
  | .line bytes => [.ofBytes bytes]
  | .dialogue _ bytes _ => (answered (Text.Lines.split bytes)).map .ofBytes

/-- What is written for the runs of a step. A dialogue has a prompt before each of them and one at
its end. -/
def written (runs : List Run) : Step → String
  | .script _ | .line _ => String.join (runs.map Run.out)
  | .dialogue prompt _ _ => String.join (runs.map fun run => prompt ++ run.out) ++ prompt

end Step

theorem Session.runLines_eq_runAll (prompt : String) (last : Option LoopError) (session : Session)
    (lines : List (List UInt8)) :
    let all := session.runAll ((Step.answered lines).map .ofBytes)
    (runLines prompt last session lines).out =
        String.join (all.1.map fun run => prompt ++ run.out) ++ prompt ∧
      (runLines prompt last session lines).session = all.2 := by
  induction lines generalizing session with
  | nil => simp [runLines, Step.answered, runAll]
  | cons line lines ih =>
      by_cases long : Text.Lines.limit ≤ line.length
      · simp [runLines, turn, long, Step.answered, runAll]
      · by_cases exit : isExit (Text.Lines.dropReturn line)
        · simp [runLines, turn, long, exit, Step.answered, runAll]
        · have first_answered : Step.answered (line :: lines) =
              Text.Lines.dropReturn line :: Step.answered lines := by
            simp [Step.answered, Nat.lt_of_not_le long, exit]
          obtain ⟨out_eq, session_eq⟩ := ih (session.runLine (Text.Lines.dropReturn line)).session
          simp only [runLines, turn, long, exit, Bool.false_eq_true, ↓reduceIte, first_answered,
            List.map_cons, runAll, out_eq, session_eq, String.join_cons, String.append_assoc]
          exact ⟨rfl, rfl⟩

namespace Step

theorem eq_runAll (step : Step) (session : Session) :
    step.out session = step.written (session.runAll step.sources).1 ∧
      step.after session = (session.runAll step.sources).2 := by
  cases step with
  | script source => simp [out, after, sources, written, Session.runAll]
  | line bytes => simp [out, after, sources, written, Session.runAll, Session.runLine]
  | dialogue prompt bytes ending => exact Session.runLines_eq_runAll prompt _ session _

theorem integral_foldl_after (session : Session) (steps : List Step)
    (free : ∀ step ∈ steps, ∀ source ∈ step.sources, source.FloatFree)
    (start : session.env.Integral) : (steps.foldl after session).env.Integral := by
  induction steps generalizing session with
  | nil => exact start
  | cons step steps ih =>
      obtain ⟨-, kept⟩ :=
        session.integral_runAll step.sources (free step List.mem_cons_self) start
      rw [← (step.eq_runAll session).2] at kept
      exact ih _ (fun other member => free other (.tail step member)) kept

end Step

/-- Where a term has values in two environments with the same types, these have the same type and
the environments have the same types afterwards. A session that starts with integers and runs no
source with a float literal holds only integers after any steps, and prints only integers at the
next one, whether or not the steps fail. -/
theorem Session.types_independent :
    (∀ (t : Term) (env other after after' : Env) (x y : Value), env.SameTypes other →
      t.eval env = (.ok x, after) → t.eval other = (.ok y, after') →
        x.isFloat = y.isFloat ∧ after.SameTypes after') ∧
    ∀ (session : Session) (steps : List Step) (next : Step), session.env.Integral →
      (∀ step ∈ steps ++ [next], ∀ source ∈ step.sources, source.FloatFree) →
        let reached := steps.foldl Step.after session
        let runs := (reached.runAll next.sources).1
        reached.env.Integral ∧ (next.after reached).env.Integral ∧
          next.out reached = next.written runs ∧
          ∀ run ∈ runs, ∀ value ∈ run.values, value.isFloat = false := by
  refine ⟨fun t => t.alike_eval, ?_⟩
  intro session steps next start free reached runs
  have integral : reached.env.Integral := Step.integral_foldl_after session steps
    (fun step member => free step (List.mem_append_left _ member)) start
  obtain ⟨printed, kept⟩ := reached.integral_runAll next.sources
    (free next (List.mem_append_right _ List.mem_cons_self)) integral
  obtain ⟨out_eq, after_eq⟩ := next.eq_runAll reached
  exact ⟨integral, after_eq ▸ kept, out_eq, fun run member => (printed run member).values⟩

/-- A line fails behind an assignment, a dialogue goes on behind a line that cannot be parsed and
ends before a float literal, and the input of a script breaks off. -/
theorem Session.types_independent_failures :
    let t : Term := .node .glue (Term.assign (.leaf (.ident "f")) (.leaf (.ident "x")))
      (Term.binary .mul (.assign (.leaf (.ident "m")) (.leaf (.ident "n"))) (.leaf (.ident "n")))
    let env := (Env.empty.set "x" (.float 0.5)).set "n" (.int 65536)
    let other := (Env.empty.set "x" (.float 2)).set "n" (.int 3)
    let session : Session := ⟨Env.empty.set "x" (.int 7), false⟩
    let steps : List Step := [.line "y=x<<2;x/0;".toUTF8.toList,
      .dialogue "> " "z=y;\r\nz/;\nexit\n1.5;".toUTF8.toList .finished]
    let next : Step := .script ⟨"x=z%5;x".toList, .failed "reset"⟩
    (t.eval env).1 = .ok (.int 0) ∧ (t.eval other).1 = .ok (.int 9) ∧
      (t.eval env).2.SameTypes (t.eval other).2 ∧
      (∀ step ∈ steps ++ [next], ∀ source ∈ step.sources, source.FloatFree) ∧
      next.out (steps.foldl Step.after session) = "3\n" ∧
      (next.after (steps.foldl Step.after session)).env.Integral := by
  intro t env other session steps next
  obtain ⟨terms, sessions⟩ := types_independent
  have same : env.SameTypes other := by
    have empty : Env.empty.SameTypes Env.empty := fun _ => rfl
    exact (empty.set "x" _ _ (by simp [Value.isFloat])).set "n" _ _ (by simp [Value.isFloat])
  have start : session.env.Integral := by
    have empty : Env.empty.Integral := by simp [Env.Integral]
    exact empty.set "x" (.int 7) rfl
  have free : ∀ step ∈ steps ++ [next], ∀ source ∈ step.sources, source.FloatFree := by
    decide +kernel
  exact ⟨rfl, rfl, (terms t env other _ _ (.int 0) (.int 9) same rfl rfl).2, free,
    by decide +kernel, (sessions session steps next start free).2.1⟩

end Abacus
