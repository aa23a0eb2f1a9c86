import Abacus.Proofs.Token.ReadToken
import Mathlib.Data.Nat.Find
import Mathlib.Logic.Function.Iterate

/-!
Taking tokens from a reader, one after another. Main statement: no character is lost or made up on
the way, every answer but the end of input leaves less to read, and so the end is reached after at
most as many answers as the text has characters.
-/
namespace Abacus
namespace Reader

def ofText (text : List Char) : Reader :=
  { tape := { unread := text } }

def answer (r : Reader) : Item :=
  (Reading.scanToken r).1

def next (r : Reader) : Reader :=
  (Reading.scanToken r).2

theorem accounted_ofText (text : List Char) : (ofText text).Accounted { chars := text } where
  ending := rfl
  trail := .start
  suffix := List.suffix_rfl
  past := by simp [ofText]
  putbacks := by simp [ofText]

section Accounted
variable {source : Source} {r : Reader} (accounted : r.Accounted source)
include accounted

theorem answer_eq_scan : (r.answer, r.next.remaining) = scan source.ending r.remaining := by
  obtain ⟨r', ran, rest, -⟩ := Reading.refines_scanToken accounted
  simp only [answer, next, ran, rest]

theorem Accounted.next : r.next.Accounted source := by
  obtain ⟨r', ran, -, accounted'⟩ := Reading.refines_scanToken accounted
  rw [Reader.next, ran]
  exact accounted'

theorem Accounted.iterate (count : Nat) : (Reader.next^[count] r).Accounted source := by
  induction count with
  | zero => exact accounted
  | succ count ih =>
      rw [Function.iterate_succ_apply']
      exact ih.next

theorem calls_replicate_eq_answers (count : Nat) :
    Lookahead.calls (List.replicate count .take) { source := ⟨r.remaining, source.ending⟩ } =
      (List.range count).map fun k => some (Reader.next^[k] r).answer := by
  induction count generalizing r with
  | zero => rfl
  | succ count ih =>
      have first := answer_eq_scan accounted
      rw [Lookahead.calls_replicate_succ, List.range_succ_eq_map, List.map_cons, List.map_map]
      simp only [Source.next, ← first]
      exact congrArg _ (ih accounted.next)

theorem suffix_of_answer (more : r.answer ≠ .ok .eof) (finished : source.ending = .finished) :
    r.next.remaining <:+ r.remaining ∧ r.next.remaining.length < r.remaining.length := by
  have same := answer_eq_scan accounted
  rw [finished] at same
  have nonempty : r.remaining ≠ [] := by
    intro left
    rw [left] at same
    exact more (congrArg Prod.fst same)
  have shorter := Scan.scan_rest_length_lt .finished r.remaining nonempty
  rw [← same] at shorter
  exact ⟨List.suffix_of_suffix_length_le accounted.next.suffix accounted.suffix shorter.le, shorter⟩

theorem answer_next_of_eof (ended : r.answer = .ok .eof) : r.next.answer = .ok .eof := by
  have same := answer_eq_scan accounted
  rw [ended] at same
  obtain ⟨finished, -, left⟩ := skip_eq_nil_of_scan_eq_eof _ _ _ same.symm
  have again := answer_eq_scan accounted.next
  rw [left, finished] at again
  exact congrArg Prod.fst again

end Accounted

section Finished
variable {text : List Char} {r : Reader} (accounted : r.Accounted { chars := text })
include accounted

theorem length_iterate_le (count : Nat)
    (more : ∀ k < count, (Reader.next^[k] r).answer ≠ .ok .eof) :
    (Reader.next^[count] r).remaining.length + count ≤ r.remaining.length := by
  induction count with
  | zero => exact Nat.le_refl _
  | succ count ih =>
      have before := ih fun k less => more k (Nat.lt_succ_of_lt less)
      have last := more count (Nat.lt_succ_self count)
      have step := suffix_of_answer (accounted.iterate count) last rfl
      rw [Function.iterate_succ_apply']
      omega

theorem exists_answer_eof :
    ∃ total ≤ r.remaining.length, (∀ k < total, (Reader.next^[k] r).answer ≠ .ok .eof) ∧
      ∀ k ≥ total, (Reader.next^[k] r).answer = .ok .eof := by
  have reached : ∃ k, k ≤ r.remaining.length ∧ (Reader.next^[k] r).answer = .ok .eof := by
    by_contra never
    push Not at never
    have used := length_iterate_le accounted (r.remaining.length + 1)
      fun k less => never k (Nat.le_of_lt_succ less)
    omega
  obtain ⟨bound, ended⟩ := Nat.find_spec reached
  refine ⟨Nat.find reached, bound, fun k less same => ?_, fun k later => ?_⟩
  · exact Nat.find_min reached less ⟨less.le.trans bound, same⟩
  · induction k, later using Nat.le_induction with
    | base => exact ended
    | succ k _ ih =>
        rw [Function.iterate_succ_apply']
        exact answer_next_of_eof (accounted.iterate k) ih

end Finished

/-- Tokens that are taken one after another from a text that can be read to its end, whatever is
found. The answers are those of the scan of what is left. All accesses are noted: a character is put
back only while none is pending, and only the one that has just been read; before each access and in
the end, what is left is a suffix of the text. Every answer but the end of input makes that suffix
shorter, so the end comes after at most as many answers as there are characters, and then again and
again. -/
theorem iterate_next_accounts (text : List Char) :
    let after (count : Nat) := Reader.next^[count] (ofText text)
    (∀ count, Lookahead.calls (List.replicate count .take) { source := { chars := text } } =
      (List.range count).map fun k => some (after k).answer) ∧
    (∀ count, ((after count).answer, (after (count + 1)).remaining) =
      scan .finished (after count).remaining) ∧
    (∀ count, Trail text (after count).history (after count).tape) ∧
    (∀ count c tape older, (.putback c, tape) :: older <:+ (after count).history →
      tape.pending = none ∧ ∃ before, older.head? = some (.read (some c), before)) ∧
    (∀ count, (after count).remaining <:+ text ∧
      ∀ moment ∈ (after count).history, moment.2.remaining <:+ text) ∧
    (∀ count, (after count).answer ≠ .ok .eof →
      (after (count + 1)).remaining <:+ (after count).remaining ∧
      (after (count + 1)).remaining.length < (after count).remaining.length) ∧
    ∃ total ≤ text.length, (∀ k < total, (after k).answer ≠ .ok .eof) ∧
      ∀ k ≥ total, (after k).answer = .ok .eof := by
  intro after
  have start := accounted_ofText text
  have all (count : Nat) : (after count).Accounted { chars := text } := start.iterate count
  have step (count : Nat) : after (count + 1) = (after count).next :=
    Function.iterate_succ_apply' _ _ _
  refine ⟨calls_replicate_eq_answers start, fun count => ?_, fun count => (all count).trail,
    fun count => (all count).putbacks, fun count => ⟨(all count).suffix, (all count).past⟩,
    fun count more => ?_, exists_answer_eof start⟩
  · rw [step]
    exact answer_eq_scan (all count)
  · rw [step]
    exact suffix_of_answer (all count) more rfl

/-- Before an exponent is given up, its marker has been put back twice and the character behind it
once. That character is then dropped with the error. -/
theorem iterate_next_accounts_exponent :
    let r := ofText ['1', 'e', ';', 'x']
    r.answer = .error .malformedFloat ∧
    r.next.history.reverse.map Prod.fst =
      [.read (some '1'), .read (some 'e'), .putback 'e', .read (some 'e'), .putback 'e',
        .read (some 'e'), .read (some ';'), .putback ';', .read (some ';')] ∧
    r.next.remaining = ['x'] ∧
    ∃ total ≤ 4, (∀ k < total, (Reader.next^[k] r).answer ≠ .ok .eof) ∧
      ∀ k ≥ total, (Reader.next^[k] r).answer = .ok .eof :=
  ⟨by decide +kernel, by decide +kernel, by decide +kernel,
    (iterate_next_accounts ['1', 'e', ';', 'x']).2.2.2.2.2.2⟩

end Reader
end Abacus
