import Abacus.Proofs.Parser.Shape

/-!
The errors that runs end in. Main statement: each of them belongs to exactly one family, which says
whether it comes from the text, from the tokens or from evaluation.
-/
namespace Abacus

namespace Report

def trail : Report → List Family
  | .lexical kind _ cause => .lexical kind :: cause.trail
  | .syntactic kind _ _ cause => .syntactic kind :: cause.trail
  | .evaluation kind _ _ _ => [.evaluation kind]
  | .absent | .plain _ => []

theorem fits_pattern (report : Report) (family : Family) :
    report.fits family.pattern = true ↔ report.trail.head? = some family := by
  have blank : TokenRecord.blank.same .blank = true := by decide
  cases report <;> cases family <;> simp [fits, Family.pattern, trail, blank]

theorem isA_pattern (report : Report) (family : Family) :
    report.isA family.pattern = true ↔ family ∈ report.trail := by
  induction report with
  | absent => simp [isA, fits, trail]
  | plain text => simp [isA, fits, trail]
  | evaluation kind name operation count =>
      change fits (.evaluation kind name operation count) family.pattern = true ↔ _
      rw [fits_pattern]
      simp [trail, eq_comm]
  | lexical kind char cause ih =>
      rw [isA, Bool.or_eq_true, fits_pattern, ih]
      simp [trail, eq_comm]
  | syntactic kind want got cause ih =>
      rw [isA, Bool.or_eq_true, fits_pattern, ih]
      simp [trail, eq_comm]

theorem families_eq_filter (report : Report) :
    report.families = Family.all.filter (· ∈ report.trail) := by
  apply List.filter_congr
  intro family _
  rw [Bool.eq_iff_iff, isA_pattern, decide_eq_true_iff]

-- a report is sorted into seventeen families, of which no two are the same
example : Family.all.length = 17 ∧ Family.all.Nodup := by decide

end Report

section Families

def LexError.kind : LexError → LexicalClass
  | .unterminatedString => .unterminatedString
  | .unterminatedChar => .unterminatedChar
  | .charTooLong => .charTooLong
  | .integerOverflow => .integerOverflow
  | .malformedFloat => .malformedFloat
  | .unterminatedComment => .unterminatedComment
  | .unexpectedChar _ => .unexpectedChar
  | .readFailure _ => .readFailure

def ParseError.family : ParseError → Family
  | .expected _ _ => .syntactic .expected
  | .unexpected _ => .syntactic .unexpected
  | .badInteger _ => .syntactic .badInteger
  | .badFloat _ => .syntactic .badFloat
  | .lexical cause => .lexical cause.kind

def EvalError.family : EvalError → Family
  | .undefined _ => .evaluation .undefined
  | .notAssignable => .evaluation .notAssignable
  | .divisionByZero _ => .evaluation .divisionByZero
  | .shiftRange _ _ => .evaluation .shiftRange
  | .missingNode | .malformed _ => .evaluation .invalidNode

theorem LexError.trail_report (e : LexError) : e.report.trail = [.lexical e.kind] := by
  cases e <;> rfl

theorem ParseError.families_report (e : ParseError) : e.report.families = [e.family] := by
  rw [Report.families_eq_filter]
  cases e with
  | lexical cause =>
      rw [ParseError.report, Report.trail, cause.trail_report, ParseError.family]
      cases cause <;> rfl
  | _ => rfl

theorem EvalError.families_report (e : EvalError) : e.report.families = [e.family] := by
  rw [Report.families_eq_filter]
  cases e <;> rfl

theorem EvalError.family_ne_invalidNode (e : EvalError) (legitimate : e.isInvalidNode = false) :
    e.family ≠ .evaluation .invalidNode := by
  cases e <;> simp_all [family, isInvalidNode]

end Families

/-- What an error says was expected closes a statement, a parenthesis or a block, and something else
was met in its place. -/
def ParseError.Fitting : ParseError → Prop
  | .expected want got =>
      want ∈ [Symbol.semicolon, .closeParen, .closeBrace] ∧ got ≠ .symbol want
  | _ => True

namespace Parser

theorem fitting_stepClose (blocks : List Term) (frames : List Frame) (operand : Term) (t : Token)
    (e : ParseError) (rejected : stepClose blocks frames operand t = .reject e) : e.Fitting := by
  unfold stepClose at rejected
  split at rejected
  · split at rejected
    · exact absurd rejected (endStatement_ne_reject _ _ _)
    · rename_i other
      cases rejected
      exact ⟨by simp, other⟩
  · split at rejected
    · simp at rejected
    · rename_i other
      cases rejected
      exact ⟨by simp, other⟩

theorem fitting_step (state : State) (t : Token) (e : ParseError)
    (rejected : step state t = .reject e) : e.Fitting := by
  unfold step at rejected
  split at rejected
  · rcases eq_of_stepStart_eq_reject _ _ _ rejected with rfl | ⟨_, rfl⟩ | ⟨_, rfl⟩ <;> trivial
  · rcases eq_of_stepOperand_eq_reject _ _ _ _ rejected with rfl | ⟨_, rfl⟩ | ⟨_, rfl⟩ <;> trivial
  · unfold stepOperator at rejected
    split at rejected
    · simp at rejected
    · split at rejected
      · simp at rejected
      · exact fitting_stepClose _ _ _ _ e rejected
    · exact fitting_stepClose _ _ _ _ e rejected

theorem fitting_replyAtEnd (ending : Ending) (state : State) (e : ParseError)
    (ended : (Script.ofReply (replyAtEnd ending state)).error = some e) : e.Fitting := by
  have located (e : ParseError) : endError? state = some e → e.Fitting := by
    fun_cases endError? state <;> rintro ⟨⟩ <;> simp [ParseError.Fitting]
  unfold replyAtEnd at ended
  split at ended
  · cases ended
    trivial
  · split at ended
    · simp [Script.ofReply] at ended
    · rename_i error found
      cases ended
      exact located e found

theorem fitting_read (ending : Ending) (state : State) (items : List Item) (e : ParseError)
    (ended : (Script.read ending state items).error = some e) : e.Fitting := by
  induction items generalizing state with
  | nil => exact fitting_replyAtEnd ending state e ended
  | cons item items ih =>
      cases item with
      | error cause =>
          cases ended
          trivial
      | ok t =>
          simp only [Script.read] at ended
          split at ended
          · exact ih _ ended
          · exact ih _ ended
          · rename_i error rejected
            cases ended
            exact fitting_step state t e rejected

end Parser

namespace Session

theorem error_run (session : Session) (source : Source) (e : RunError)
    (ended : (session.run source).error = some e) :
    (∃ cause, e = .parse cause ∧ cause.Fitting) ∨
      ∃ cause, e = .eval cause ∧ cause.isInvalidNode = false := by
  have formed := Script.wellFormed_statements source
  simp only [run, runScript] at ended
  cases evaluated : (session.runTerms (Script.ofSource source).statements).error with
  | some met =>
      rw [evaluated] at ended
      obtain rfl : met = e := Option.some.inj ended
      exact .inr (session.legitimate_runTerms _ formed met evaluated)
  | none =>
      rw [evaluated] at ended
      obtain ⟨cause, found, rfl⟩ := Option.map_eq_some_iff.mp ended
      exact .inl ⟨cause, rfl, Parser.fitting_read _ _ _ cause found⟩

/-- The error of a run belongs to exactly one family, and this is not that of invalid nodes. It is a
lexical one exactly if the error passes on a lexical error, and then the message is that of the
lexical error. Only what closes a statement, a parenthesis or a block is expected, and it is not
what was met. -/
theorem families_of_run (session : Session) (bytes : List UInt8) (ending : Ending) (e : RunError)
    (ended : (session.run (.ofBytes bytes ending)).error = some e) :
    ∃ family, e.report.families = [family] ∧ family ≠ .evaluation .invalidNode ∧
      ((∃ kind, family = .lexical kind) ↔ ∃ cause, e = .parse (.lexical cause)) ∧
      (∀ cause, e = .parse (.lexical cause) → e.message = cause.report.message) ∧
      ∀ want got, e = .parse (.expected want got) →
        want ∈ [Symbol.semicolon, .closeParen, .closeBrace] ∧ got ≠ .symbol want := by
  rcases session.error_run _ e ended with ⟨cause, rfl, fitting⟩ | ⟨cause, rfl, legitimate⟩
  · refine ⟨cause.family, cause.families_report, ?_, ?_, ?_, ?_⟩
    · cases cause <;> simp [ParseError.family]
    · cases cause <;> simp [ParseError.family]
    · rintro _ ⟨⟩
      rfl
    · rintro want got ⟨⟩
      exact fitting
  · refine ⟨cause.family, cause.families_report, cause.family_ne_invalidNode legitimate, ?_, ?_, ?_⟩
    · cases cause <;> simp [EvalError.family]
    · simp
    · simp

/-- The text is cut off behind the number that stands where a parenthesis should be closed. -/
theorem families_of_run_expected :
    let e : RunError := .parse (.expected .closeParen (.int 2 "2"))
    (({} : Session).run (.ofBytes "x=1;(x 2 ".toUTF8.toList (.failed "closed"))).error = some e ∧
      ∃ family, e.report.families = [family] ∧ family ≠ .evaluation .invalidNode ∧
        (¬ ∃ kind, family = .lexical kind) ∧
        Symbol.closeParen ∈ [Symbol.semicolon, .closeParen, .closeBrace] ∧
        Token.int 2 "2" ≠ .symbol .closeParen := by
  intro e
  have ended : (({} : Session).run
      (.ofBytes "x=1;(x 2 ".toUTF8.toList (.failed "closed"))).error = some e := by decide +kernel
  obtain ⟨family, single, other, lexical, -, expected⟩ := families_of_run _ _ _ _ ended
  refine ⟨ended, family, single, other, ?_, expected _ _ rfl⟩
  rw [lexical]
  simp [e]

end Session
end Abacus
