import Abacus.Proofs.Token.Continuation
import Abacus.Proofs.Token.Lossless

/-!
Read failures. A scan that meets one gives it and leaves nothing, and would have read to the end; to
any other scan it makes no difference. Main statement: the items of a text that fails are those of
the text that ends, up to its end or to the last of them.
-/
namespace Abacus

def Symbol.ends : Symbol → Bool
  | .semicolon | .closeBrace => true
  | _ => false

theorem scan_of_ends (ending : Ending) (s : Symbol) (ends : s.ends = true) (text rest : List Char)
    (scanned : scan .finished text = (.ok (.symbol s), rest)) :
    scan ending text = (.ok (.symbol s), rest) := by
  obtain ⟨word, next⟩ := exists_nextToken .finished text rest _ scanned (by simp)
  obtain rfl : word = s.spelling.toList := next.spelled
  rw [scan, next.skipped]
  cases s with
  | semicolon => exact Scan.scanSymbol_of_not_looksAhead ending .semicolon rest rfl
  | closeBrace => exact Scan.scanSymbol_of_not_looksAhead ending .closeBrace rest rfl
  | _ => simp [Symbol.ends] at ends

theorem scan_failed_cases (reason : String) (text : List Char) :
    (scan (.failed reason) text = scan .finished text ∧ (scan .finished text).1 ≠ .ok .eof ∧
      ∀ (ending : Ending) (more : List Char), scan ending (text ++ more) =
        ((scan .finished text).1, (scan .finished text).2 ++ more)) ∨
      (scan (.failed reason) text = (.error (.readFailure reason), []) ∧
        (scan .finished text).2 = [] ∧
        ∀ s : Symbol, s.ends = true → (scan .finished text).1 ≠ .ok (.symbol s)) := by
  rcases Scan.decided_scan text with ⟨ended, failed⟩ | ⟨outcome, rest, settled⟩
  · right
    refine ⟨failed reason, ended, fun s ends found => ?_⟩
    have scanned : scan .finished text = (.ok (.symbol s), (scan .finished text).2) := by
      rw [← found]
    have failing := failed reason
    rw [scan_of_ends (.failed reason) s ends text _ scanned] at failing
    simp at failing
  · left
    have same (ending : Ending) : scan ending text = (outcome, rest) := by
      simpa using settled ending []
    refine ⟨by rw [same, same], fun ends => ?_, by simpa only [same] using settled⟩
    obtain rfl : outcome = .ok .eof := by simpa only [same] using ends
    obtain ⟨finished, -⟩ := skip_eq_nil_of_scan_eq_eof (.failed reason) text rest (same _)
    simp at finished

/-- The items of a text that fails are those of the text that ends, of which the last may be missing
unless it ends a statement, and then the failure, unless the text ends before it is looked for. Any
text that goes on begins with the same items. -/
theorem scanAll_failed (reason : String) (text : List Char) :
    ∃ (items : List Item) (last : Option Item),
      scanAll .finished text = items ++ last.toList ∧
      (scanAll (.failed reason) text = items ∧ last = none ∨
        scanAll (.failed reason) text = items ++ [.error (.readFailure reason)]) ∧
      (∀ s : Symbol, s.ends = true → last ≠ some (.ok (.symbol s))) ∧
      ∀ (ending : Ending) (more : List Char), items <+: scanAll ending (text ++ more) := by
  by_cases empty : text = []
  · subst empty
    exact ⟨[], none, by simp, .inl (by simp), by simp, by simp⟩
  · rcases scan_failed_cases reason text with ⟨same, inner, goes_on⟩ | ⟨failed, ended, ends⟩
    · have shorter := Scan.scan_rest_length_lt .finished text empty
      obtain ⟨items, last, normal, failing, ends, begins⟩ :=
        scanAll_failed reason (scan .finished text).2
      rw [ne_eq, ← Item.isEnd_iff] at inner
      refine ⟨(scan .finished text).1 :: items, last, ?_, ?_, ends, ?_⟩
      · rw [scanAll_of_ne_nil _ text empty, if_neg inner, normal]
        rfl
      · rw [scanAll_of_ne_nil _ text empty, same, if_neg inner]
        simpa using failing
      · intro ending more
        rw [scanAll_of_ne_nil ending _ (by simp [empty]), goes_on, if_neg inner]
        exact List.cons_prefix_cons.mpr ⟨rfl, begins ending more⟩
    · have failing : scanAll (.failed reason) text = [.error (.readFailure reason)] := by
        rw [scanAll_of_ne_nil _ text empty, failed, scanAll_nil]
        rfl
      by_cases last : Item.isEnd (scan .finished text).1 = true
      · refine ⟨[], none, ?_, .inr failing, by simp, by simp⟩
        rw [scanAll_of_ne_nil _ text empty, if_pos last]
        rfl
      · refine ⟨[], some (scan .finished text).1, ?_, .inr failing, by simpa using ends, by simp⟩
        rw [scanAll_of_ne_nil _ text empty, if_neg last, ended, scanAll_nil]
        rfl
termination_by text.length

end Abacus
