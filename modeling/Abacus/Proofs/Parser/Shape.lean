import Abacus.Proofs.Number.Binary64
import Abacus.Proofs.Parser.Allocation
import Abacus.Proofs.Session.Block
import Abacus.Proofs.Token.Lossless
import Abacus.Proofs.Tree.Statement

/-!
The terms that are parsed. Main statement: whatever a source holds, and however many requests have
failed before, a statement that is given has the shape of one.
-/
namespace Abacus
open Number Grammar

namespace Literal

theorem toInt_ofNat (n : Nat) (bound : n ≤ integerLimit) : (Int32.ofNat n).toInt = n :=
  Int32.toInt_ofNat_of_lt (Nat.lt_succ_of_le bound)

theorem range_ofNat (n : Nat) (bound : n ≤ integerLimit) :
    0 ≤ (Int32.ofNat n).toInt ∧ (Int32.ofNat n).toInt ≤ integerLimit := by
  rw [toInt_ofNat n bound]
  omega

theorem range_radix (base : Nat) (digits : List Char) (value : Int32)
    (valid : radix base digits = .ok value) : 0 ≤ value.toInt ∧ value.toInt ≤ integerLimit := by
  simp only [radix] at valid
  split at valid
  · simp at valid
  · split at valid
    · simp at valid
    · rename_i bound
      cases valid
      exact range_ofNat _ (Nat.le_of_not_lt bound)

theorem range_scientific (numeral : List Char) (value : Int32)
    (valid : scientific numeral = .ok value) : 0 ≤ value.toInt ∧ value.toInt ≤ integerLimit := by
  simp only [scientific] at valid
  split at valid
  · simp at valid
  · split at valid
    · simp at valid
    · rename_i bound
      cases valid
      exact range_ofNat _ (Nat.div_le_of_le_mul (by rw [Nat.mul_comm]; omega))

theorem range_integer (numeral : List Char) (value : Int32) (valid : integer numeral = .ok value) :
    0 ≤ value.toInt ∧ value.toInt ≤ integerLimit := by
  unfold integer at valid
  split at valid
  · exact range_radix _ _ _ valid
  · split at valid
    · exact range_scientific _ _ valid
    · split at valid
      · exact range_radix _ _ _ valid
      · exact range_radix _ _ _ valid

theorem isFinite_float (numeral : List Char) (value : Float) (valid : float numeral = .ok value) :
    Binary64.isFinite value = true := by
  simp only [float, Decimal.finiteWord?] at valid
  split at valid
  · simp at valid
  · rename_i word found
    cases valid
    split at found
    · rename_i finite
      cases found
      exact Binary64.isFinite_ofWord false _ finite
    · simp at found

end Literal

def Token.Genuine : Token → Prop
  | .name text => isName text.toList = true ∧ Word.ofSpelling? text = none
  | _ => True

theorem genuine_of_scan (ending : Ending) (text : List Char) (t : Token)
    (scanned : (scan ending text).1 = .ok t) : t.Genuine := by
  rcases nextToken_of_scan ending text _ t (Prod.ext scanned rfl) with ⟨rfl, -⟩ | ⟨-, word, next⟩
  · trivial
  · have spelled := next.spelled
    cases t with
    | name text =>
        obtain ⟨rfl, name, free⟩ := spelled
        exact ⟨name, free⟩
    | _ => trivial

theorem genuine_of_mem_stream (source : Source) (t : Token)
    (member : .ok t ∈ source.stream.items) : t.Genuine := by
  obtain ⟨-, before, scanned⟩ := exists_scan_of_mem_scanAll _ _ _ member
  exact genuine_of_scan _ _ _ scanned

namespace Grammar

theorem Phrase.isExpression_term {c : Category} (x : Phrase c)
    (genuine : ∀ t ∈ x.tokens, t.Genuine) : x.term.IsExpression := by
  induction x with
  | integer value text number valid => exact .number number (Literal.range_integer _ _ valid)
  | float value text number valid =>
      exact .float number _ valid (Literal.isFinite_float _ _ valid)
  | name text =>
      obtain ⟨name, free⟩ := genuine (.name text) List.mem_cons_self
      exact .ident text name free
  | paren inner ih => exact ih fun t member => genuine t (by simp [tokens, member])
  | plus operand ih => exact ih fun t member => genuine t (by simp [tokens, member])
  | lone _ inner ih => exact ih genuine
  | sign op operand ih => exact .unary op (ih fun t member => genuine t (by simp [tokens, member]))
  | binary s op _ left right ih_left ih_right =>
      exact .binary op (ih_left fun t member => genuine t (by simp [tokens, member]))
        (ih_right fun t member => genuine t (by simp [tokens, member]))
  | assign left right ih_left ih_right =>
      exact .assign (ih_left fun t member => genuine t (by simp [tokens, member]))
        (ih_right fun t member => genuine t (by simp [tokens, member]))

theorem Statement.isStatement_termsOfAll (body : List Statement)
    (genuine : ∀ t ∈ tokensOfAll body, t.Genuine) :
    ∀ t ∈ termsOfAll body, t.isEmpty = false → t.IsStatement :=
  termsOfAll_of_closed _ _ (fun _ _ => .glue) (fun x all => .expression (x.isExpression_term all))
    body genuine

theorem Statement.isStatement_term (x : Statement) (genuine : ∀ t ∈ x.tokens, t.Genuine)
    (nonempty : x.term.isEmpty = false) : x.term.IsStatement :=
  term_of_closed _ _ (fun _ _ => .glue) (fun x all => .expression (x.isExpression_term all)) x
    genuine nonempty

end Grammar

namespace Parser

theorem exists_statement_of_run (ending : Ending) (state : State) (ts : List Token)
    (reads : Reads state ts) (items : List Item) (term : Term)
    (replied : (run ending state items).1 = .statement term) :
    ∃ (used : List Token) (statement : Statement),
      items = used.map .ok ++ (run ending state items).2 ∧
        statement.tokens = ts ++ used ∧ statement.term = term := by
  induction items generalizing state ts with
  | nil => exact absurd replied (replyAtEnd_ne_statement ending state term)
  | cons item items ih =>
      cases item with
      | error cause => simp [run] at replied
      | ok t =>
          have sound := sound_step state ts reads t
          simp only [run] at replied ⊢
          split
          · rename_i next step_eq
            simp only [step_eq] at sound replied
            obtain ⟨used, statement, items_eq, tokens_eq, term_eq⟩ := ih next _ sound replied
            exact ⟨t :: used, statement, congrArg (Except.ok t :: ·) items_eq, by simp [tokens_eq],
              term_eq⟩
          · rename_i accepted step_eq
            simp only [step_eq, Reply.statement.injEq] at sound replied
            subst replied
            obtain ⟨statement, tokens_eq, term_eq⟩ := sound
            exact ⟨[t], statement, rfl, tokens_eq, term_eq⟩
          · rename_i error step_eq
            simp [step_eq] at replied

theorem exists_statement_of_mem_read (ending : Ending) (state : State) (ts : List Token)
    (reads : Reads state ts) (items : List Item) (term : Term)
    (member : term ∈ (Script.read ending state items).statements) :
    ∃ statement : Statement, statement.term = term ∧
      ∀ t ∈ statement.tokens, t ∈ ts ∨ .ok t ∈ items := by
  induction items generalizing state ts with
  | nil =>
      simp only [Script.read] at member
      generalize reply_eq : replyAtEnd ending state = reply at member
      cases reply with
      | statement t => exact absurd reply_eq (replyAtEnd_ne_statement ending state t)
      | endOfInput => simp [Script.ofReply] at member
      | error e => simp [Script.ofReply] at member
  | cons item items ih =>
      cases item with
      | error cause => simp [Script.read] at member
      | ok t =>
          have sound := sound_step state ts reads t
          simp only [Script.read] at member
          split at member
          · rename_i next step_eq
            rw [step_eq] at sound
            obtain ⟨statement, term_eq, used⟩ := ih next _ sound member
            refine ⟨statement, term_eq, fun other found => ?_⟩
            have := used other found
            grind
          · rename_i accepted step_eq
            rw [step_eq] at sound
            rcases List.mem_cons.mp member with rfl | member
            · obtain ⟨statement, tokens_eq, term_eq⟩ := sound
              refine ⟨statement, term_eq, fun other found => ?_⟩
              rw [tokens_eq] at found
              grind
            · obtain ⟨statement, term_eq, used⟩ := ih .initial [] (.start []) member
              refine ⟨statement, term_eq, fun other found => .inr (.tail _ ?_)⟩
              exact (used other found).resolve_left List.not_mem_nil
          · simp at member

end Parser

theorem Script.wellFormed_statements (source : Source) :
    ∀ t ∈ (ofSource source).statements, t.WellFormed := by
  intro t member
  obtain ⟨statement, rfl, -⟩ :=
    Parser.exists_statement_of_mem_read _ .initial [] (.start []) _ t member
  exact statement.wellFormed_term

theorem TokenStream.isStatement_of_reply (source : Source) (count : Nat) (term : Term)
    (replied : (source.stream.after count).statement.1 = .statement term)
    (nonempty : term.isEmpty = false) : term.IsStatement := by
  obtain ⟨used, statement, items_eq, tokens_eq, rfl⟩ :=
    Parser.exists_statement_of_run _ .initial [] (.start []) _ term replied
  -- the tokens of the statement come from the source, however many requests were made before
  refine statement.isStatement_term (fun t member => genuine_of_mem_stream source t ?_) nonempty
  apply (source.stream.items_after_suffix count).mem
  rw [items_eq, List.mem_append, List.mem_map]
  exact .inl ⟨t, by simpa [tokens_eq] using member, rfl⟩

namespace Session

theorem runTerms_verify (session : Session) (verify : Bool) (terms : List Term)
    (formed : ∀ t ∈ terms, t.WellFormed) :
    runTerms { session with verify := verify } terms =
      { session.runTerms terms with
        session := { (session.runTerms terms).session with verify := verify } } := by
  induction terms generalizing session with
  | nil => rfl
  | cons term terms ih =>
      have rest := fun t member => formed t (.tail term member)
      cases term with
      | empty => exact ih session rest
      | node label left right =>
          have shape := formed _ List.mem_cons_self
          rw [runTerms_cons _ _ rfl, runTerms_cons _ _ rfl, evaluate_of_wellFormed _ _ shape,
            evaluate_of_wellFormed _ _ shape]
          dsimp only
          rcases evaluated : Term.eval (.node label left right) session.env with ⟨outcome, env⟩
          cases outcome with
          | error e => rfl
          | ok value =>
              have tail := ih { session with env := env } rest
              simp only [Except.mapError] at tail ⊢
              rw [tail]

theorem run_verify (session : Session) (verify : Bool) (source : Source) :
    run { session with verify := verify } source =
      { session.run source with
        session := { (session.run source).session with verify := verify } } := by
  have formed := Script.wellFormed_statements source
  simp only [run, runScript, runTerms_verify session verify _ formed]

end Session

/-- What a request gives, if it gives a statement that has an effect, has the shape of one. It
shares no node, within itself or with a statement that was given before. It has no violations, and
its evaluation meets no invalid node. It has a JSON form unless this is too deep. Checking the
shapes makes no difference to a run. -/
theorem Source.isStatement_of_replied (source : Source) :
    (∀ count : Nat, (source.nodes.after count).statement.1.forget =
      (source.stream.after count).statement.1) ∧
    (∀ (count : Nat) (graph : Graph),
      (source.nodes.after count).statement.1 = .statement graph → graph.isEmpty = false →
        graph.term.IsStatement ∧
        graph.ids.Nodup ∧
        (∀ earlier < count, ∀ other : Graph,
          (source.nodes.after earlier).statement.1 = .statement other →
            ∀ id ∈ other.ids, id ∉ graph.ids) ∧
        graph.violations = [] ∧ graph.term.violations = [] ∧
        (∀ (env : Env) (e : EvalError),
          (graph.term.eval env).1 = .error e → e.isInvalidNode = false) ∧
        (graph.term.jsonDepth ≤ jsonDepthLimit → ∃ text, graph.term.json = .ok text) ∧
        (jsonDepthLimit < graph.term.jsonDepth → graph.term.json = .error .tooDeep)) ∧
    ∀ env : Env,
      (Session.run ⟨env, true⟩ source).out = (Session.run ⟨env, false⟩ source).out ∧
      (Session.run ⟨env, true⟩ source).session.env = (Session.run ⟨env, false⟩ source).session.env ∧
      (Session.run ⟨env, true⟩ source).error = (Session.run ⟨env, false⟩ source).error := by
  refine ⟨source.nodes.forget_statement_after, fun count graph replied nonempty => ?_,
    fun env => ?_⟩
  · have forgotten := source.nodes.forget_statement_after count
    rw [replied] at forgotten
    have has_root : graph.term.isEmpty = false := (Tree.isEmpty_map _ graph).trans nonempty
    have shape := TokenStream.isStatement_of_reply source count graph.term forgotten.symm has_root
    have distinct := source.nodes.nodup_of_replied count graph replied
    have unshared := (Graph.nodup_ids_iff graph).mp distinct
    have json := shape.json_eq
    refine ⟨shape, distinct, source.nodes.not_mem_ids_of_replied count graph replied,
      (Graph.violations_eq_nil_iff graph).mpr ⟨shape.wellFormed, unshared⟩,
      (Term.violations_eq_nil_iff graph.term).mpr shape.wellFormed,
      graph.term.legitimate_eval shape.wellFormed has_root, ?_, ?_⟩
    · intro shallow
      exact ⟨_, json.trans (if_neg (Nat.not_lt.mpr shallow))⟩
    · intro deep
      exact json.trans (if_pos deep)
  · have same := Session.run_verify ⟨env, false⟩ true source
    rw [same]
    exact ⟨rfl, rfl, rfl⟩

deriving instance DecidableEq for Parser.Reply

/-- The first request fails and drops a number, for which a node has been built. The second one gets
what is left of that line, and the third one the block. -/
theorem Source.isStatement_of_replied_resumed :
    let source : Source := ⟨"1 2; \x7bx=-0x1F; y|1e3;\x7d".toList, .finished⟩
    let leaf (id : Nat) (label : Label) : Graph := .node (id, label) .empty .empty
    let graph : Graph := .node (8, .glue)
      (.node (4, .assign) (leaf 1 (.ident "x"))
        (.node (3, .unary .negate) (leaf 2 (.number 31)) .empty))
      (.node (7, .binary .bitOr) (leaf 5 (.ident "y")) (leaf 6 (.number 1000)))
    (source.nodes.after 2).statement.1 = .statement graph ∧ graph.term.IsStatement ∧
      (source.stream.after 2).statement.1 = .statement graph.term ∧ graph.violations = [] := by
  intro source leaf graph
  have replied : (source.nodes.after 2).statement.1 = .statement graph := by decide +kernel
  obtain ⟨forgets, shapes, -⟩ := source.isStatement_of_replied
  obtain ⟨shape, -, -, none, -⟩ := shapes 2 graph replied rfl
  refine ⟨replied, shape, ?_, none⟩
  rw [← forgets 2, replied]
  rfl

section Depth

def Grammar.Phrase.complements : Nat → Phrase .unary
  | 0 => .lone (by simp) (.integer 1 "1" 1 rfl)
  | n + 1 => .sign .bitNot (complements n)

theorem Grammar.Phrase.jsonDepth_complements (n : Nat) :
    (complements n).term.jsonDepth = n + 1 := by
  induction n with
  | zero => rfl
  | succ n ih => simp [complements, term, Term.unary, Term.jsonDepth, ih]

theorem Grammar.Phrase.json_complements (n : Nat) (deep : jsonDepthLimit ≤ n) :
    (complements n).term.json = .error .tooDeep := by
  have finite : (complements n).term.notFinite? = none := by
    clear deep
    induction n with
    | zero => rfl
    | succ n ih => simp [complements, term, Term.unary, Term.notFinite?, ih]
  simp only [Term.json, finite, jsonDepth_complements, if_pos (Nat.lt_succ_of_le deep)]

theorem scanAll_complements (n : Nat) :
    scanAll .finished (List.replicate n '~' ++ ['1', ';']) =
      ((Phrase.complements n).tokens ++ [Token.symbol .semicolon]).map .ok := by
  induction n with
  | zero => decide +kernel
  | succ n ih =>
      rw [List.replicate_succ, List.cons_append,
        scanAll_of_scan_ok .finished _ _ _ (scan_symbol .finished _ .tilde _ rfl rfl) (by simp), ih]
      rfl

theorem TokenStream.statement_tokens (statement : Statement) :
    (TokenStream.mk (statement.tokens.map .ok) .finished).statement.1 =
      .statement statement.term := by
  have read := Parser.read_program [statement]
  rw [Parser.read_eq_of_run] at read
  simp only [Program.tokens, Program.terms, Statement.tokensOfAll, Statement.termsOfAll,
    List.append_nil] at read
  rw [statement_eq]
  dsimp only
  rcases replied : Parser.run .finished .initial (statement.tokens.map .ok) with ⟨reply, rest⟩
  rw [replied] at read
  cases reply with
  | statement term =>
      exact congrArg Parser.Reply.statement (List.cons.inj (congrArg Script.statements read)).1
  | endOfInput => simp [Script.ofReply] at read
  | error e => simp [Script.ofReply] at read

/-- Under ten thousand tildes a number stands too deep for JSON. -/
theorem Source.json_tooDeep :
    ∃ term : Term,
      (Source.mk (List.replicate 10000 '~' ++ ['1', ';']) .finished).stream.statement.1 =
        .statement term ∧ term.isEmpty = false ∧ term.json = .error .tooDeep := by
  obtain ⟨phrase, tokens_eq, term_eq⟩ :=
    Phrase.exists_looser .assignment .unary (by decide) (Phrase.complements 10000)
  refine ⟨phrase.term, ?_, phrase.isEmpty_term, ?_⟩
  · rw [Source.stream, scanAll_complements, ← tokens_eq]
    exact TokenStream.statement_tokens (.expression phrase)
  · rw [term_eq]
    exact Phrase.json_complements 10000 (Nat.le_refl _)

end Depth

end Abacus
