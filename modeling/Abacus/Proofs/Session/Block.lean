import Abacus.Proofs.Eval.WellFormed
import Abacus.Proofs.Parser.Language
import Abacus.Proofs.Session.Concatenation
import Abacus.Proofs.Session.Output
import Abacus.Proofs.Token.Spelling
import Abacus.Proofs.Tree.Sharing

/-!
Scripts in braces. Main statement: the block of a script does what the script does, and of what the
script writes it writes the last line.
-/
namespace Abacus
open Grammar

section Parsing

theorem decode_block (bytes : List UInt8) :
    Text.Utf8.decode (0x7b :: (bytes ++ [0x0a, 0x7d])) =
      '\x7b' :: (Text.Utf8.decode bytes ++ ['\n', '\x7d']) := by
  have opened := Text.Utf8.decode_append_ascii 0x7b (by decide) [] (bytes ++ [0x0a, 0x7d])
  have closed := Text.Utf8.decode_append_ascii 0x0a (by decide) bytes [0x7d]
  rw [List.nil_append] at opened
  rw [opened, closed]
  rfl

theorem scanAll_block (text : List Char) (tokens : List Token)
    (items : scanAll .finished text = tokens.map .ok) :
    scanAll .finished ('\x7b' :: (text ++ ['\n', '\x7d'])) =
      (.symbol .openBrace :: (tokens ++ [.symbol .closeBrace])).map .ok := by
  have closed : scanAll .finished ['\x7d'] = [.ok (.symbol .closeBrace)] := by
    rw [scanAll_of_scan_ok .finished ['\x7d'] [] (.symbol .closeBrace) rfl (by simp),
      scanAll_of_scan_eof .finished [] [] rfl]
  rw [scanAll_of_scan_ok .finished _ _ _ (scan_symbol .finished _ .openBrace _ rfl rfl) (by simp),
    scanAll_append_newline text ['\x7d'] tokens items, closed]
  simp

theorem Script.ofSource_block (bytes : List UInt8) (program : Program)
    (items : (Source.ofBytes bytes).stream.items = program.tokens.map .ok) :
    ofSource (.ofBytes (0x7b :: (bytes ++ [0x0a, 0x7d]))) = ⟨[joined program.terms], none⟩ := by
  have tokens := scanAll_block (Text.Utf8.decode bytes) program.tokens items
  have read := Parser.read_program [.block program]
  simp only [ofSource, Source.stream, Source.ofBytes, decode_block, tokens]
  simpa [Program.tokens, Program.terms, Statement.tokensOfAll, Statement.termsOfAll,
    Statement.tokens, Statement.term] using read

end Parsing

structure Run.Agrees (run other : Run) : Prop where
  session : run.session = other.session
  error : run.error = other.error
  last : run.error = none → run.values.getLast? = other.values.getLast?

theorem Run.Agrees.trans {a b c : Run} (first : a.Agrees b) (second : b.Agrees c) : a.Agrees c where
  session := first.session.trans second.session
  error := first.error.trans second.error
  last none := (first.last none).trans (second.last (first.error ▸ none))

namespace Session

theorem evaluate_of_wellFormed (session : Session) (term : Term) (formed : term.WellFormed) :
    session.evaluate term =
      ((term.eval session.env).1.mapError .eval,
        { session with env := (term.eval session.env).2 }) := by
  have none := (Term.violations_eq_nil_iff term).mpr formed
  rcases evaluated : term.eval session.env with ⟨outcome, env⟩
  simp only [evaluate, none, evaluated, ite_self, List.isEmpty_nil, ↓reduceIte]
  cases outcome <;> rfl

theorem evaluate_glue (session : Session) (first second : Term) (left : first.WellFormed)
    (right : second.WellFormed) (left_nonempty : first.isEmpty = false)
    (right_nonempty : second.isEmpty = false) :
    session.evaluate (.node .glue first second) =
      match session.evaluate first with
      | (.ok _, session) => session.evaluate second
      | (.error e, session) => (.error e, session) := by
  have formed := Term.wellFormed_glue first second left right left_nonempty right_nonempty
  rw [evaluate_of_wellFormed session _ formed, evaluate_of_wellFormed session first left]
  simp only [Term.eval, left_nonempty, right_nonempty, Bool.or_self, Bool.false_eq_true, ↓reduceIte]
  rcases first.eval session.env with ⟨outcome, env⟩
  cases outcome with
  | ok value => exact (evaluate_of_wellFormed { session with env := env } second right).symm
  | error e => rfl

theorem runTerms_cons (session : Session) (term : Term) (nonempty : term.isEmpty = false)
    (terms : List Term) :
    session.runTerms (term :: terms) =
      match session.evaluate term with
      | (.ok value, session) =>
          { session.runTerms terms with values := value :: (session.runTerms terms).values }
      | (.error e, session) => ⟨[], some e, session⟩ := by
  cases term with
  | empty => simp [Tree.isEmpty] at nonempty
  | node => rfl

theorem runTerms_filter (session : Session) (terms : List Term) :
    session.runTerms (terms.filter (!·.isEmpty)) = session.runTerms terms := by
  induction terms generalizing session with
  | nil => rfl
  | cons term terms ih =>
      cases term with
      | empty => exact ih session
      | node label left right =>
          rw [List.filter_cons_of_pos rfl]
          simp only [runTerms, ih]

theorem legitimate_runTerms (session : Session) (terms : List Term)
    (formed : ∀ t ∈ terms, t.WellFormed) (e : RunError)
    (ended : (session.runTerms terms).error = some e) :
    ∃ cause, e = .eval cause ∧ cause.isInvalidNode = false := by
  induction terms generalizing session with
  | nil => simp [runTerms] at ended
  | cons term terms ih =>
      have rest := fun session => ih session fun t member => formed t (.tail term member)
      cases nonempty : term.isEmpty with
      | true =>
          cases term with
          | empty => exact rest session ended
          | node => simp [Tree.isEmpty] at nonempty
      | false =>
          have shape := formed term List.mem_cons_self
          have legitimate := term.legitimate_eval shape nonempty session.env
          rw [runTerms_cons session term nonempty,
            evaluate_of_wellFormed session term shape] at ended
          rcases evaluated : term.eval session.env with ⟨outcome, env⟩
          rw [evaluated] at ended legitimate
          cases outcome with
          | ok value => exact rest { session with env := env } ended
          | error cause => exact ⟨cause, (Option.some.inj ended).symm, by simpa using legitimate⟩

theorem error_runTerms (session : Session) (terms : List Term)
    (formed : ∀ t ∈ terms, t.WellFormed) :
    (session.runTerms terms).error = none ∨
      ∃ e, (session.runTerms terms).error = some (.eval e) := by
  cases ended : (session.runTerms terms).error with
  | none => exact .inl rfl
  | some e =>
      obtain ⟨cause, rfl, -⟩ := session.legitimate_runTerms terms formed e ended
      exact .inr ⟨cause, rfl⟩

theorem agrees_glue (session : Session) (first second : Term) (terms : List Term)
    (left : first.WellFormed) (right : second.WellFormed) (left_nonempty : first.isEmpty = false)
    (right_nonempty : second.isEmpty = false) :
    (session.runTerms (.node .glue first second :: terms)).Agrees
      (session.runTerms (first :: second :: terms)) := by
  rw [runTerms_cons session _ rfl, runTerms_cons session first left_nonempty,
    evaluate_glue session first second left right left_nonempty right_nonempty]
  rcases session.evaluate first with ⟨outcome, after⟩
  cases outcome with
  | error e => exact ⟨rfl, rfl, by simp⟩
  | ok value =>
      simp only [runTerms_cons after second right_nonempty]
      rcases after.evaluate second with ⟨outcome, last⟩
      cases outcome with
      | error e => exact ⟨rfl, rfl, by simp⟩
      | ok value => exact ⟨rfl, rfl, by simp⟩

theorem agrees_foldl_glue (session : Session) (terms : List Term) (first : Term)
    (formed : first.WellFormed) (nonempty : first.isEmpty = false)
    (all : ∀ t ∈ terms, t.WellFormed ∧ t.isEmpty = false) :
    (session.runTerms [terms.foldl (.node .glue) first]).Agrees
      (session.runTerms (first :: terms)) := by
  induction terms generalizing first with
  | nil => exact ⟨rfl, rfl, fun _ => rfl⟩
  | cons second terms ih =>
      obtain ⟨second_formed, second_nonempty⟩ := all second List.mem_cons_self
      have joint := Term.wellFormed_glue first second formed second_formed nonempty second_nonempty
      have rest := ih _ joint rfl fun t member => all t (.tail second member)
      exact rest.trans
        (session.agrees_glue first second terms formed second_formed nonempty second_nonempty)

theorem agrees_joined (session : Session) (terms : List Term)
    (formed : ∀ t ∈ terms, t.WellFormed) :
    (session.runTerms [joined terms]).Agrees (session.runTerms terms) := by
  have kept := Term.wellFormed_filter terms formed
  rw [← session.runTerms_filter terms]
  unfold joined
  split
  · rename_i filtered
    rw [filtered]
    exact ⟨rfl, rfl, fun _ => rfl⟩
  · rename_i first rest filtered
    rw [filtered] at kept ⊢
    obtain ⟨first_formed, nonempty⟩ := kept first List.mem_cons_self
    exact session.agrees_foldl_glue rest first first_formed nonempty fun t member =>
      kept t (.tail first member)

theorem values_runTerms_singleton (session : Session) (term : Term) :
    let run := session.runTerms [term]
    (run.error = none → run.values = run.values.getLast?.toList) ∧
      (run.error ≠ none → run.values = []) := by
  cases term with
  | empty => exact ⟨fun _ => rfl, fun _ => rfl⟩
  | node label left right =>
      simp only [runTerms]
      rcases session.evaluate (.node label left right) with ⟨outcome, after⟩
      cases outcome <;> simp

theorem runTerms_of_empty (session : Session) (terms : List Term)
    (none : ∀ t ∈ terms, t = .empty) : session.runTerms terms = ⟨[], .none, session⟩ := by
  have filtered : terms.filter (!·.isEmpty) = [] := by
    rw [List.filter_eq_nil_iff]
    intro t member
    simp [none t member, Tree.isEmpty]
  rw [← session.runTerms_filter terms, filtered]
  rfl

theorem runScript_of_complete (session : Session) (terms : List Term) :
    session.runScript ⟨terms, none⟩ = session.runTerms terms := by
  simp [runScript]

end Session

theorem exists_program_of_gives (bytes : List UInt8) (terms : List Term)
    (parses : (Source.ofBytes bytes).stream.Gives terms) :
    ∃ program : Program, (Source.ofBytes bytes).stream.items = program.tokens.map .ok ∧
      program.terms = terms := by
  have read := (TokenStream.gives_iff _ terms).mp parses
  obtain ⟨tokens, items⟩ := Script.exists_tokens_of_read _ _ _ (by rw [read])
  rw [items] at read ⊢
  obtain ⟨program, rfl, terms_eq⟩ := (Parser.read_eq_iff tokens terms).mp read
  exact ⟨program, rfl, terms_eq⟩

/-- A script that parses to its end and the block of it leave the same session and end in the same
error, which can only be one of evaluation. Without an error the block writes the last line that
the script writes, which is nothing if no statement has an effect, and with one it writes
nothing. -/
theorem Session.run_block (session : Session) (bytes : List UInt8) (terms : List Term)
    (parses : (Source.ofBytes bytes).stream.Gives terms) :
    let script := session.run (.ofBytes bytes)
    let block := session.run (.ofBytes (0x7b :: (bytes ++ [0x0a, 0x7d])))
    block.session = script.session ∧ block.error = script.error ∧
      (script.error = none ∨ ∃ e, script.error = some (.eval e)) ∧
      (script.error = none → block.out = Text.lastLine script.out) ∧
      ((∀ t ∈ terms, t = .empty) → script.out = "" ∧ block.out = "") ∧
      (script.error ≠ none → block.out = "") := by
  obtain ⟨program, items, rfl⟩ := exists_program_of_gives bytes terms parses
  have formed : ∀ t ∈ program.terms, t.WellFormed := Statement.wellFormed_termsOfAll program
  have script_eq : session.run (.ofBytes bytes) = session.runTerms program.terms := by
    have read : Script.ofSource (.ofBytes bytes) = ⟨program.terms, none⟩ :=
      (TokenStream.gives_iff _ _).mp parses
    rw [run, read, runScript_of_complete]
  have block_eq : session.run (.ofBytes (0x7b :: (bytes ++ [0x0a, 0x7d]))) =
      session.runTerms [joined program.terms] := by
    rw [run, Script.ofSource_block bytes program items, runScript_of_complete]
  have agrees := session.agrees_joined program.terms formed
  obtain ⟨value, no_value⟩ := session.values_runTerms_singleton (joined program.terms)
  have written : (session.runTerms program.terms).error = none →
      (session.runTerms [joined program.terms]).out =
        Text.lastLine (session.runTerms program.terms).out := by
    intro complete
    rw [← agrees.error] at complete
    rw [Run.lastLine_out, Run.out, value complete, agrees.last complete]
  intro script block
  simp only [script, block, script_eq, block_eq]
  refine ⟨agrees.session, agrees.error, session.error_runTerms program.terms formed, written,
    ?_, ?_⟩
  · intro none
    rw [session.runTerms_of_empty program.terms none] at written ⊢
    exact ⟨rfl, written rfl⟩
  · intro fails
    rw [← agrees.error] at fails
    rw [Run.out, no_value fails]
    rfl

/-- The script ends in a comment, and its second statement is without effect. -/
theorem Session.run_block_comment :
    (Source.ofBytes "x=4;;x*3;//".toUTF8.toList).stream.Gives
        [.assign (.leaf (.ident "x")) (.leaf (.number 4)), .empty,
          .binary .mul (.leaf (.ident "x")) (.leaf (.number 3))] ∧
      (({} : Session).run
        (.ofBytes (0x7b :: ("x=4;;x*3;//".toUTF8.toList ++ [0x0a, 0x7d])))).out = "12\n" := by
  have parses : (Source.ofBytes "x=4;;x*3;//".toUTF8.toList).stream.Gives
      [.assign (.leaf (.ident "x")) (.leaf (.number 4)), .empty,
        .binary .mul (.leaf (.ident "x")) (.leaf (.number 3))] :=
    (TokenStream.gives_iff _ _).mpr (by decide +kernel)
  have complete : (({} : Session).run (.ofBytes "x=4;;x*3;//".toUTF8.toList)).error = none := by
    decide +kernel
  refine ⟨parses, ((run_block {} _ _ parses).2.2.2.1 complete).trans ?_⟩
  decide +kernel

end Abacus
