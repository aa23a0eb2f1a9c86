import Abacus.Proofs.Token.Separation

/-!
Texts that go on. Main statement: a scan that does not look behind the end of a text, where it would
meet a read failure, finds the same whatever follows the text.
-/
namespace Abacus
open Text

namespace Scan

def Settled {α : Type} (scanner : Ending → List Char → Result α) (text : List Char) : Prop :=
  ∃ (outcome : Except LexError α) (rest : List Char), ∀ (ending : Ending) (more : List Char),
    scanner ending (text ++ more) = (outcome, rest ++ more)

/-- The scan looks behind the end of the text, and has then read all of it. -/
def LooksBehind {α : Type} (scanner : Ending → List Char → Result α) (text : List Char) : Prop :=
  (scanner .finished text).2 = [] ∧
    ∀ reason, scanner (.failed reason) text = (.error (.readFailure reason), [])

def Decided {α : Type} (scanner : Ending → List Char → Result α) (text : List Char) : Prop :=
  LooksBehind scanner text ∨ Settled scanner text

theorem Takes.decided {α : Type} {scanner : Ending → List Char → Result α} {text : List Char}
    {good : Except LexError α → List Char → List Char → Prop} (takes : Takes scanner good text) :
    Decided scanner text := by
  obtain ⟨word, rest, outcome, rfl, reads, -⟩ := takes
  cases reads with
  | within _ same =>
      exact .inr ⟨outcome, rest, fun ending more => by rw [List.append_assoc, same]⟩
  | looking same =>
      cases rest with
      | nil =>
          have looks := fun ending => same ending [] (.inl rfl)
          exact .inl ⟨by rw [looks], fun reason => looks (.failed reason)⟩
      | cons c rest =>
          refine .inr ⟨outcome, c :: rest, fun ending more => ?_⟩
          rw [List.append_assoc, same ending (c :: rest ++ more) (.inl rfl), List.cons_append,
            Ending.lookAt_cons]

theorem decided_congr {α : Type} {inner scanner : Ending → List Char → Result α}
    {behind text : List Char} (decided : Decided inner behind)
    (same : ∀ ending more, scanner ending (text ++ more) = inner ending (behind ++ more)) :
    Decided scanner text := by
  rcases decided with ⟨ended, failed⟩ | ⟨outcome, rest, settled⟩
  · have exact := fun ending => same ending []
    simp only [List.append_nil] at exact
    exact .inl ⟨by rw [exact, ended], fun reason => by rw [exact, failed]⟩
  · exact .inr ⟨outcome, rest, fun ending more => by rw [same, settled]⟩

theorem decided_scan (text : List Char) : Decided scan text := by
  cases skipped : Trivia.skip text with
  | none =>
      left
      constructor
      · simp [scan, skipped]
      · intro reason
        simp [scan, skipped, Ending.lookAt]
  | some left =>
      cases left with
      | nil =>
          left
          constructor
          · simp [scan, skipped, scanToken]
          · intro reason
            simp [scan, skipped, scanToken, Ending.lookAt]
      | cons c rest =>
          by_cases slash : c = '/' ∧ rest = []
          -- a slash at the end may be the beginning of a comment
          · obtain ⟨rfl, rfl⟩ := slash
            left
            constructor
            · simp only [scan, skipped]
              rfl
            · intro reason
              simp only [scan, skipped]
              rfl
          · refine decided_congr (takes_scanToken c rest).decided fun ending more => ?_
            obtain ⟨-, no_comment⟩ := Trivia.head_of_skipFrom .blanks text rest c skipped
            have longer : Trivia.skip (text ++ more) = some (c :: (rest ++ more)) := by
              refine Trivia.skipFrom_append_more .blanks text c rest more skipped ?_
              intro is_slash d first
              cases rest with
              | nil => exact absurd ⟨is_slash, rfl⟩ slash
              | cons e rest => exact no_comment is_slash d first
            simp only [scan, longer, List.cons_append]

end Scan
end Abacus
