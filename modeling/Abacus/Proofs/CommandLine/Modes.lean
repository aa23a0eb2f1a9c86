import Abacus.CommandLine
import Abacus.Proofs.Parser.Shape
import Abacus.Proofs.Session.ReadFailure

/-!
The three things that are done with a file. Main statement: a file that can be run has trees that
can be printed, unless they are too deep for JSON, and a file whose trees are printed has tokens
that can be listed. A run writes at most as many values as there are trees that have an effect.
-/
namespace Abacus
open Grammar

namespace Script

theorem exists_program_of_complete (source : Source) (complete : (ofSource source).error = none) :
    source.ending = .finished ∧ ∃ program : Program,
      source.stream.items = program.tokens.map .ok ∧
        program.terms = (ofSource source).statements := by
  obtain ⟨text, ending⟩ := source
  obtain ⟨tokens, items⟩ := exists_tokens_of_read _ _ _ complete
  cases ending with
  | failed reason =>
      obtain ⟨-, fails, -⟩ := read_failed reason .initial (scanAll _ text) none (by simp)
      exact absurd complete fails
  | finished =>
      simp only [ofSource, items] at complete ⊢
      obtain ⟨program, rfl, terms⟩ := (Parser.read_eq_iff tokens _).mp (congrArg (mk _) complete)
      exact ⟨trivial, program, rfl, terms⟩

theorem gives_of_complete (source : Source) (complete : (ofSource source).error = none) :
    source.stream.Gives (ofSource source).statements :=
  (TokenStream.gives_iff _ _).mpr (congrArg (mk _) complete)

theorem isStatement_of_complete (source : Source) (complete : (ofSource source).error = none) :
    ∀ t ∈ (ofSource source).statements, t.isEmpty = false → t.IsStatement := by
  obtain ⟨-, program, items, terms⟩ := exists_program_of_complete source complete
  rw [← terms]
  refine Statement.isStatement_termsOfAll program fun t member => genuine_of_mem_stream source t ?_
  rw [items]
  exact List.mem_map_of_mem member

end Script

theorem Session.length_values_runTerms (session : Session) (terms : List Term) :
    let run := session.runTerms terms
    run.values.length ≤ (terms.filter (!·.isEmpty)).length ∧
      (run.error = none → run.values.length = (terms.filter (!·.isEmpty)).length) := by
  induction terms generalizing session with
  | nil => exact ⟨Nat.le_refl _, fun _ => rfl⟩
  | cons term terms ih =>
      cases term with
      | empty => exact ih session
      | node label left right =>
          rw [List.filter_cons_of_pos rfl]
          simp only [runTerms]
          split
          · rename_i value next evaluated
            obtain ⟨most, exact⟩ := ih next
            refine ⟨Nat.succ_le_succ most, fun complete => ?_⟩
            rw [List.length_cons, List.length_cons, exact complete]
          · exact ⟨Nat.zero_le _, by simp⟩

namespace CommandLine

theorem code_listItems (name : String) (tokens : List Token) :
    (listItems name .finished (tokens.map .ok)).code = 0 := by
  induction tokens with
  | nil => rfl
  | cons t tokens ih => exact ih

section Printing
variable (options : Options) (name : String) (error : Option ParseError)

theorem printTerms_cons_ok (term : Term) (formed : term.WellFormed) (terms : List Term)
    (text : String) (rendered : renderTree options.treeFormat term = .ok text) :
    printTerms options name error (term :: terms) =
      (printTerms options name error terms).after text := by
  have none := (Term.violations_eq_nil_iff term).mpr formed
  simp only [printTerms, none, ite_self, List.isEmpty_nil, ↓reduceIte, rendered]

theorem code_printTerms_cons_error (term : Term) (formed : term.WellFormed) (terms : List Term)
    (e : JsonError) (rendered : renderTree options.treeFormat term = .error e) :
    (printTerms options name error (term :: terms)).code = 1 := by
  have none := (Term.violations_eq_nil_iff term).mpr formed
  simp only [printTerms, none, ite_self, List.isEmpty_nil, ↓reduceIte, rendered]

theorem code_printTerms (terms : List Term) (formed : ∀ t ∈ terms, t.WellFormed) :
    (printTerms options name error terms).code = 0 ↔
      error = none ∧ ∀ t ∈ terms, ∃ text, renderTree options.treeFormat t = .ok text := by
  induction terms with
  | nil => cases error <;> simp [printTerms, fileError]
  | cons term terms ih =>
      have first := formed term List.mem_cons_self
      have rest := ih fun t member => formed t (.tail term member)
      cases rendered : renderTree options.treeFormat term with
      | ok text =>
          rw [printTerms_cons_ok options name error term first terms text rendered]
          simpa [Outcome.after, rendered] using rest
      | error e =>
          rw [code_printTerms_cons_error options name error term first terms e rendered]
          simp [rendered]

theorem out_printTerms (terms : List Term) (formed : ∀ t ∈ terms, t.WellFormed)
    (printed : (printTerms options name error terms).code = 0) :
    ∃ texts : List String, terms.map (renderTree options.treeFormat) = texts.map .ok ∧
      (printTerms options name error terms).out = String.join texts := by
  induction terms with
  | nil =>
      obtain ⟨rfl, -⟩ := (code_printTerms options name error [] formed).mp printed
      exact ⟨[], rfl, rfl⟩
  | cons term terms ih =>
      have first := formed term List.mem_cons_self
      cases rendered : renderTree options.treeFormat term with
      | ok text =>
          rw [printTerms_cons_ok options name error term first terms text rendered] at printed ⊢
          obtain ⟨texts, all, out⟩ := ih (fun t member => formed t (.tail term member)) printed
          exact ⟨text :: texts, by simp [rendered, all], by simp [Outcome.after, out]⟩
      | error e =>
          rw [code_printTerms_cons_error options name error term first terms e rendered] at printed
          exact absurd printed (by decide)

end Printing

theorem renderTree_eq_ok_iff (format : String) (t : Term)
    (shape : t.isEmpty = false → t.IsStatement) :
    (∃ text, renderTree format t = .ok text) ↔
      (format = "json" → t.jsonDepth ≤ jsonDepthLimit) := by
  unfold renderTree
  split
  · rename_i json
    have finite : t.notFinite? = none := by
      cases t with
      | empty => rfl
      | node label left right => exact (shape rfl).notFinite?_eq
    simp only [Term.json, finite, json, forall_const]
    split
    · rename_i deep
      simpa using deep
    · rename_i shallow
      simpa using shallow
  · rename_i other
    simp [other]

/-- What running a file, printing its trees and listing its tokens have to do with each other. The
trees of the file are those that `parses` holds of. -/
structure Nested (format : String) (parses : List Term → Prop) (ran printed listed : Outcome) :
    Prop where
  printed_of_ran : ran.code = 0 → ∃ trees, parses trees ∧
    (printed.code = 0 ↔ (format = "json" → ∀ t ∈ trees, t.jsonDepth ≤ jsonDepthLimit))
  listed_of_printed : printed.code = 0 → listed.code = 0
  values_of_printed : printed.code = 0 → ∃ (trees : List Term) (texts : List String),
    parses trees ∧ trees.map (renderTree format) = texts.map .ok ∧
      printed.out = String.join texts ∧
      (Text.lines ran.out.toList).length ≤ (trees.filter (!·.isEmpty)).length ∧
      (ran.code = 0 →
        (Text.lines ran.out.toList).length = (trees.filter (!·.isEmpty)).length)

theorem Nested.of_imp {format : String} {parses parses' : List Term → Prop}
    {ran printed listed : Outcome} (nested : Nested format parses ran printed listed)
    (also : ∀ trees, parses trees → parses' trees) :
    Nested format parses' ran printed listed where
  printed_of_ran success := by
    obtain ⟨trees, parsed, rest⟩ := nested.printed_of_ran success
    exact ⟨trees, also trees parsed, rest⟩
  listed_of_printed := nested.listed_of_printed
  values_of_printed success := by
    obtain ⟨trees, texts, parsed, rest⟩ := nested.values_of_printed success
    exact ⟨trees, texts, also trees parsed, rest⟩

section Runs
variable (options : Options) (name : String) (source : Source)

theorem out_runFile :
    (runFile options name source).out =
      (Session.run { verify := options.verify } source).out := by
  simp only [runFile]
  split <;> rfl

theorem code_runFile :
    (runFile options name source).code = 0 ↔
      (Session.run { verify := options.verify } source).error = none := by
  simp only [runFile]
  split
  · rename_i complete
    simp [complete]
  · rename_i e ended
    simp [ended, fileError]

theorem length_lines_runFile :
    let lines := Text.lines (runFile options name source).out.toList
    let trees := (Script.ofSource source).statements.filter (!·.isEmpty)
    lines.length ≤ trees.length ∧
      ((runFile options name source).code = 0 → lines.length = trees.length) := by
  intro lines trees
  have values := Session.length_values_runTerms { verify := options.verify }
    (Script.ofSource source).statements
  have written :
      lines.length = (Session.run { verify := options.verify } source).values.length := by
    simp only [lines, out_runFile, Run.lines_out, List.length_map]
  rw [written, code_runFile]
  refine ⟨values.1, fun complete => values.2 ?_⟩
  exact ((Session.runScript_error_eq_none _ _).mp complete).1

end Runs

theorem nested_runMode (script trees tokens : Options) (name : String) (source : Source) :
    Nested trees.treeFormat source.stream.Gives (runMode .run script name source)
      (runMode .trees trees name source) (runMode .tokens tokens name source) := by
  have formed := Script.wellFormed_statements source
  have printed := code_printTerms trees name (Script.ofSource source).error _ formed
  constructor
  · intro success
    obtain ⟨-, complete⟩ :=
      (Session.runScript_error_eq_none _ _).mp ((code_runFile script name source).mp success)
    have shape := Script.isStatement_of_complete source complete
    refine ⟨_, Script.gives_of_complete source complete, printed.trans ?_⟩
    constructor
    · rintro ⟨-, rendered⟩ json t member
      exact (renderTree_eq_ok_iff _ t (shape t member)).mp (rendered t member) json
    · intro shallow
      exact ⟨complete, fun t member =>
        (renderTree_eq_ok_iff _ t (shape t member)).mpr fun json => shallow json t member⟩
  · intro success
    obtain ⟨complete, -⟩ := printed.mp success
    obtain ⟨finished, program, items, -⟩ := Script.exists_program_of_complete source complete
    have listed := code_listItems name program.tokens
    rw [← items, ← finished] at listed
    exact listed
  · intro success
    obtain ⟨complete, -⟩ := printed.mp success
    obtain ⟨texts, rendered, out⟩ := out_printTerms trees name _ _ formed success
    exact ⟨_, texts, Script.gives_of_complete source complete, rendered, out,
      length_lines_runFile script name source⟩

/-- Of a file that runs, the trees are printed unless JSON is asked for and a tree is too deep for
it. A file whose trees are printed has its tokens listed, and a run of it writes at most one line
for each tree that has an effect, and exactly one if it succeeds. A file may fail to open, or at any
place to be read. -/
theorem nested_modes (script trees tokens : Options) (name : String) :
    (∀ source : Source,
      Nested trees.treeFormat source.stream.Gives (runMode .run script name source)
        (runMode .trees trees name source) (runMode .tokens tokens name source)) ∧
    ∀ (input : List UInt8) (openEntry : String → Except OpenError Entry),
      Nested trees.treeFormat
        (fun terms => ∃ entry, openEntry name = .ok entry ∧ (entry.source name).stream.Gives terms)
        (Command.execute (.file .run script name) input openEntry)
        (Command.execute (.file .trees trees name) input openEntry)
        (Command.execute (.file .tokens tokens name) input openEntry) := by
  refine ⟨nested_runMode script trees tokens name, ?_⟩
  intro input openEntry
  simp only [Command.execute]
  cases openEntry name with
  | error e => constructor <;> simp
  | ok entry =>
      exact (nested_runMode script trees tokens name (entry.source name)).of_imp
        fun terms parsed => ⟨entry, rfl, parsed⟩

/-- The second statement is without effect and the third one fails, so of two trees that have an
effect one gives a line. -/
theorem nested_modes_division :
    let openEntry : String → Except OpenError Entry :=
      fun _ => .ok (.file "x=4;;x/0;".toUTF8.toList)
    let ran := Command.execute (.file .run {} "a.mx") [] openEntry
    let printed := Command.execute (.file .trees {} "a.mx") [] openEntry
    let listed := Command.execute (.file .tokens {} "a.mx") [] openEntry
    ran.code = 1 ∧ ran.out = "4\n" ∧ printed.code = 0 ∧ listed.code = 0 ∧
      ∃ trees : List Term, trees.length = 3 ∧
        (Text.lines ran.out.toList).length ≤ (trees.filter (!·.isEmpty)).length := by
  intro openEntry ran printed listed
  have success : printed.code = 0 := by decide +kernel
  have nested := (nested_modes {} {} {} "a.mx").2 [] openEntry
  obtain ⟨trees, texts, parsed, -, -, most, -⟩ := nested.values_of_printed success
  refine ⟨by decide +kernel, by decide +kernel, success, nested.listed_of_printed success, trees,
    ?_, most⟩
  obtain ⟨entry, ⟨⟩, gives⟩ := parsed
  obtain rfl := congrArg Script.statements ((TokenStream.gives_iff _ _).mp gives)
  decide +kernel

end CommandLine

section Depth

theorem decode_complements (n : Nat) :
    Text.Utf8.decode (List.replicate n 0x7e ++ [0x31, 0x3b]) =
      List.replicate n '~' ++ ['1', ';'] := by
  induction n with
  | zero => decide
  | succ n ih =>
      have first := Text.Utf8.decode_append_ascii 0x7e (by decide) []
        (List.replicate n 0x7e ++ [0x31, 0x3b])
      rw [ih] at first
      exact first

theorem Script.ofSource_complements (n : Nat) :
    ofSource ⟨List.replicate n '~' ++ ['1', ';'], .finished⟩ =
      ⟨[(Phrase.complements n).term], none⟩ := by
  obtain ⟨phrase, tokens_eq, term_eq⟩ :=
    Phrase.exists_looser .assignment .unary (by decide) (Phrase.complements n)
  have read := Parser.read_program [.expression phrase]
  rw [ofSource, Source.stream, scanAll_complements, ← tokens_eq, ← term_eq]
  simpa [Program.tokens, Program.terms, Statement.tokensOfAll, Statement.termsOfAll,
    Statement.tokens, Statement.term] using read

theorem Grammar.Phrase.eval_complements (n : Nat) (env : Env) :
    ∃ value, (complements n).term.eval env = (.ok value, env) := by
  induction n with
  | zero => exact ⟨.int 1, rfl⟩
  | succ n ih =>
      obtain ⟨value, evaluated⟩ := ih
      refine ⟨UnaryOp.bitNot.apply value, ?_⟩
      simp only [complements, term, Term.unary, Term.eval, isEmpty_term, evaluated]
      rfl

namespace CommandLine

theorem code_complements (n : Nat) (options : Options) (name : String) :
    let entry : Entry := .file (List.replicate n 0x7e ++ [0x31, 0x3b])
    (runMode .run options name (entry.source name)).code = 0 ∧
      (options.treeFormat = "json" → jsonDepthLimit ≤ n →
        (runMode .trees options name (entry.source name)).code = 1) := by
  intro entry
  have script := Script.ofSource_complements n
  have formed := (Phrase.complements n).wellFormed_term
  have nonempty := (Phrase.complements n).isEmpty_term
  simp only [entry, Entry.source, Source.ofBytes, decode_complements, runMode]
  constructor
  · obtain ⟨value, evaluated⟩ := Phrase.eval_complements n .empty
    rw [code_runFile, Session.run, script, Session.runScript_of_complete,
      Session.runTerms_cons _ _ nonempty, Session.evaluate_of_wellFormed _ _ formed, evaluated]
    rfl
  · intro json deep
    have fails : renderTree options.treeFormat (Phrase.complements n).term = .error .tooDeep := by
      rw [renderTree, if_pos json, Phrase.json_complements n deep]
    rw [printTrees, script]
    exact code_printTerms_cons_error options name none _ formed [] .tooDeep fails

/-- The file holds a one under ten thousand tildes. It is run, and its tree is not printed. -/
theorem printed_tooDeep :
    let openEntry : String → Except OpenError Entry :=
      fun _ => .ok (.file (List.replicate 10000 0x7e ++ [0x31, 0x3b]))
    ((Command.ofArguments ["-ast-format", "json", "a.mx"]).execute [] openEntry).code = 0 ∧
      ((Command.ofArguments ["-emit-ast", "-ast-format", "json", "a.mx"]).execute []
        openEntry).code = 1 := by
  have run : Command.ofArguments ["-ast-format", "json", "a.mx"] =
      .file .run { treeFormat := "json" } "a.mx" := by decide +kernel
  have print : Command.ofArguments ["-emit-ast", "-ast-format", "json", "a.mx"] =
      .file .trees { emitTree := true, treeFormat := "json" } "a.mx" := by decide +kernel
  intro openEntry
  rw [run, print]
  exact ⟨(code_complements 10000 _ _).1, (code_complements 10000 _ _).2 rfl (Nat.le_refl _)⟩

end CommandLine

end Depth
end Abacus
