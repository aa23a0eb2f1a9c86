import Abacus.Token.Scan

/-!
How far a scanner reads. It takes a word off a text, and what it finds hangs on the word and on at
most one character behind it. This is kept by one scan after another.
-/
namespace Abacus
open Text

structure Separates (c : Char) : Prop where
  notName : Scan.isNameChar c = false
  notDigit : digitValue? c = none
  notSymbol : Symbol.ofChar? c = none
  notLonger : ∀ s : Symbol, s.extend? c = none

section Separates
variable {b : Char} (separates : Separates b)
include separates

theorem Separates.isDigit : isDigit b = false := by
  have := separates.notDigit
  unfold digitValue? at this
  split at this
  · simp at this
  · simp_all

theorem Separates.digit? (base : Nat) : digit? base b = none := by
  simp [Text.digit?, separates.notDigit]

theorem Separates.ne (c : Char) (part : Scan.isNameChar c = true ∨ Symbol.ofChar? c ≠ none) :
    b ≠ c := by
  rintro rfl
  simp [separates.notName, separates.notSymbol] at part

theorem Separates.noMarker : ¬ (b = 'e' ∨ b = 'E') := by
  rintro (rfl | rfl)
  · exact separates.ne 'e' (by decide +kernel) rfl
  · exact separates.ne 'E' (by decide +kernel) rfl

end Separates

namespace Ending
variable {α : Type} (ending : Ending)

@[simp] theorem lookAt_cons (c : Char) (rest : List Char) (outcome : Except LexError α) :
    ending.lookAt (c :: rest) outcome = outcome := by
  cases ending <;> rfl

@[simp] theorem lookAt_finished (rest : List Char) (outcome : Except LexError α) :
    finished.lookAt rest outcome = outcome := rfl

theorem lookAt_cases (rest : List Char) :
    (∃ e, rest = [] ∧ ∀ (α : Type) (outcome : Except LexError α),
      ending.lookAt rest outcome = .error e) ∨
      ∀ (α : Type) (outcome : Except LexError α), ending.lookAt rest outcome = outcome := by
  cases ending with
  | finished => exact .inr fun α outcome => rfl
  | failed reason =>
      cases rest with
      | nil => exact .inl ⟨.readFailure reason, rfl, fun α outcome => rfl⟩
      | cons c rest => exact .inr fun α outcome => rfl

end Ending

namespace Scan

theorem lookAt_eq_ok {α : Type} (ending : Ending) (rest : List Char) (outcome : Except LexError α)
    (value : α) (looked : ending.lookAt rest outcome = .ok value) : outcome = .ok value := by
  rcases ending.lookAt_cases rest with ⟨e, -, fails⟩ | passes
  · simp [fails] at looked
  · rwa [passes] at looked

theorem andThen_lookAt {α β : Type} (ending : Ending) (rest : List Char)
    (outcome : Except LexError α) (f : α → Except LexError β) :
    andThen (ending.lookAt rest outcome, rest) (fun value rest => (f value, rest)) =
      (ending.lookAt rest (outcome.bind f), rest) := by
  rcases ending.lookAt_cases rest with ⟨e, -, fails⟩ | passes
  · simp only [fails, andThen]
  · rw [passes, passes]
    cases outcome <;> rfl

theorem span_append (p : Char → Bool) (front next : List Char) (all : ∀ c ∈ front, p c = true)
    (stop : ∀ c ∈ next.head?, p c = false) :
    (front ++ next).takeWhile p = front ∧ (front ++ next).dropWhile p = next := by
  rw [List.takeWhile_append_of_pos all, List.dropWhile_append_of_pos all]
  cases next with
  | nil => simp
  | cons c next => simp [stop c rfl]

theorem head?_dropWhile (p : Char → Bool) (text : List Char) :
    ∀ c ∈ (text.dropWhile p).head?, p c = false := by
  intro c first
  have stopped := List.head?_dropWhile_not p text
  rw [Option.mem_def.mp first] at stopped
  simpa using stopped

section Reads
variable {α β : Type}

/-- What begins like `rest` does, or, if a value has been found, begins with no character that a
token goes on with. -/
def Fits (outcome : Except LexError α) (rest next : List Char) : Prop :=
  next.head? = rest.head? ∨ outcome.isOk = true ∧ ∀ b ∈ next.head?, Separates b

theorem eq_nil_of_fits_error (e : LexError) (next : List Char)
    (fits : Fits (.error e : Except LexError α) [] next) : next = [] := by
  rcases fits with same | ⟨found, -⟩
  · simpa using same
  · simp [Except.isOk, Except.toBool] at found

theorem fits_append (value : α) (outcome : Except LexError β) (word rest next : List Char)
    (fits : Fits outcome rest next) :
    Fits (.ok value : Except LexError α) (word ++ rest) (word ++ next) := by
  cases word with
  | nil =>
      rcases fits with same | ⟨-, apart⟩
      · exact .inl same
      · exact .inr ⟨rfl, apart⟩
  | cons c word => exact .inl rfl

theorem Fits.forall_head {outcome : Except LexError α} {rest next : List Char}
    (fits : Fits outcome rest next) (p : Char → Bool) (stop : ∀ c ∈ rest.head?, p c = false)
    (apart : ∀ b, Separates b → p b = false) : ∀ c ∈ next.head?, p c = false := by
  rcases fits with same | ⟨-, separate⟩
  · rwa [same]
  · exact fun b head => apart b (separate b head)

/-- A scan that takes `word` off the text before `rest`, with this outcome. Either it does not see
what stands behind the word, or it has looked at the first character of that. -/
inductive Reads (scanner : Ending → List Char → Result α) (word rest : List Char)
    (outcome : Except LexError α) : Prop where
  | within (nonempty : word ≠ [])
      (same : ∀ ending next, scanner ending (word ++ next) = (outcome, next))
  | looking (same : ∀ ending next, Fits outcome rest next →
      scanner ending (word ++ next) = (ending.lookAt next outcome, next))

/-- A scan takes a word off a text, and `good` says what the outcome has to do with the word and
with what is left. -/
def Takes (scanner : Ending → List Char → Result α)
    (good : Except LexError α → List Char → List Char → Prop) (text : List Char) : Prop :=
  ∃ word rest outcome, text = word ++ rest ∧ Reads scanner word rest outcome ∧
    good outcome word rest

variable {scanner inner : Ending → List Char → Result α}
  {good good' : Except LexError α → List Char → List Char → Prop} {text : List Char}

theorem Reads.eq {word rest : List Char} {outcome : Except LexError α}
    (reads : Reads scanner word rest outcome) (ending : Ending) :
    scanner ending (word ++ rest) = (outcome, rest) ∨
      scanner ending (word ++ rest) = (ending.lookAt rest outcome, rest) := by
  cases reads with
  | within _ same => exact .inl (same ending rest)
  | looking same => exact .inr (same ending rest (.inl rfl))

theorem Takes.of_eq_ok (takes : Takes scanner good text) {ending : Ending} {value : α}
    {left : List Char} (scanned : scanner ending text = (.ok value, left)) :
    ∃ word, text = word ++ left ∧ Reads scanner word left (.ok value) ∧
      good (.ok value) word left := by
  obtain ⟨word, rest, outcome, rfl, reads, holds⟩ := takes
  obtain ⟨found, rfl⟩ : outcome = .ok value ∧ rest = left := by
    rcases reads.eq ending with same | same
    · exact Prod.mk.inj (same.symm.trans scanned)
    · obtain ⟨looked, rest_eq⟩ := Prod.mk.inj (same.symm.trans scanned)
      exact ⟨lookAt_eq_ok _ _ _ _ looked, rest_eq⟩
  subst found
  exact ⟨word, rfl, reads, holds⟩

theorem Reads.alone {word rest : List Char} {value : α}
    (reads : Reads scanner word rest (.ok value)) :
    scanner .finished word = (.ok value, []) := by
  rw [← List.append_nil word]
  cases reads with
  | within _ same => exact same .finished []
  | looking same => exact same .finished [] (.inr ⟨rfl, by simp⟩)

theorem Reads.append {word rest : List Char} {value : α}
    (reads : Reads scanner word rest (.ok value))
    (ending : Ending) (c : Char) (more : List Char) (apart : rest = [] → Separates c) :
    scanner ending (word ++ (rest ++ c :: more)) = (.ok value, rest ++ c :: more) := by
  cases reads with
  | within _ same => exact same ending _
  | looking same =>
      cases rest with
      | nil => simpa using same ending (c :: more) (.inr ⟨rfl, by simpa using apart rfl⟩)
      | cons d rest => simpa using same ending (d :: (rest ++ c :: more)) (.inl rfl)

theorem Takes.imp (takes : Takes scanner good text)
    (also : ∀ outcome word rest, text = word ++ rest → good outcome word rest →
      good' outcome word rest) : Takes scanner good' text := by
  obtain ⟨word, rest, outcome, split, reads, holds⟩ := takes
  exact ⟨word, rest, outcome, split, reads, also outcome word rest split holds⟩

theorem Takes.cons (c : Char) (same : ∀ ending next, scanner ending (c :: next) = inner ending next)
    (takes : Takes inner (fun outcome word rest => good outcome (c :: word) rest) text) :
    Takes scanner good (c :: text) := by
  obtain ⟨word, rest, outcome, rfl, reads, holds⟩ := takes
  refine ⟨c :: word, rest, outcome, rfl, ?_, holds⟩
  cases reads with
  | within _ inner_same =>
      exact .within (by simp) fun ending next => by rw [List.cons_append, same, inner_same]
  | looking inner_same =>
      exact .looking fun ending next fits => by rw [List.cons_append, same, inner_same _ _ fits]

theorem Takes.of_first (c : Char)
    (same : ∀ ending next, scanner ending (c :: next) = inner ending (c :: next))
    (takes : Takes inner (fun outcome word rest => word ≠ [] ∧ good outcome word rest)
      (c :: text)) : Takes scanner good (c :: text) := by
  obtain ⟨word, rest, outcome, split, reads, nonempty, holds⟩ := takes
  obtain ⟨d, word, rfl⟩ := List.exists_cons_of_ne_nil nonempty
  obtain ⟨rfl, -⟩ := List.cons.inj split
  refine ⟨c :: word, rest, outcome, split, ?_, holds⟩
  cases reads with
  | within _ inner_same =>
      exact .within nonempty fun ending next => by
        rw [List.cons_append, same, ← List.cons_append, inner_same]
  | looking inner_same =>
      exact .looking fun ending next fits => by
        rw [List.cons_append, same, ← List.cons_append, inner_same _ _ fits]

theorem Takes.of_head (p : Char → Prop) (apart : ∀ b, Separates b → p b)
    (same : ∀ ending next, (∀ c ∈ next.head?, p c) → scanner ending next = inner ending next)
    (first : ∀ c ∈ text.head?, p c) (takes : Takes inner good text) : Takes scanner good text := by
  obtain ⟨word, rest, outcome, rfl, reads, holds⟩ := takes
  refine ⟨word, rest, outcome, rfl, ?_, holds⟩
  cases reads with
  | within nonempty inner_same =>
      refine .within nonempty fun ending next => ?_
      rw [same ending _ ?_, inner_same]
      obtain ⟨c, word, rfl⟩ := List.exists_cons_of_ne_nil nonempty
      exact first
  | looking inner_same =>
      refine .looking fun ending next fits => ?_
      rw [same ending _ ?_, inner_same ending next fits]
      cases word with
      | cons c word => exact first
      | nil =>
          rcases fits with begins | ⟨-, separate⟩
          · rw [List.nil_append, begins]
            exact first
          · exact fun b head => apart b (separate b head)

theorem Reads.andThen {first : Ending → List Char → Result α}
    {next : Ending → α → List Char → Result β} {word more rest : List Char} {value : α}
    {outcome : Except LexError β} (reads : Reads first word (more ++ rest) (.ok value))
    (goes_on : Reads (fun ending => next ending value) more rest outcome) :
    Reads (fun ending text => Scan.andThen (first ending text) (next ending)) (word ++ more) rest
      outcome := by
  cases reads with
  | within nonempty same =>
      cases goes_on with
      | within _ same' =>
          refine .within (by simp [nonempty]) fun ending left => ?_
          simp only [List.append_assoc, same, Scan.andThen, same']
      | looking same' =>
          refine .looking fun ending left fits => ?_
          simp only [List.append_assoc, same, Scan.andThen, same' ending left fits]
  | looking same =>
      cases goes_on with
      | within nonempty same' =>
          refine .within (by simp [nonempty]) fun ending left => ?_
          obtain ⟨c, more, rfl⟩ := List.exists_cons_of_ne_nil nonempty
          have found := same ending (c :: more ++ left) (.inl rfl)
          rw [List.cons_append, Ending.lookAt_cons] at found
          simp only [List.append_assoc, List.cons_append, found, Scan.andThen]
          exact same' ending left
      | looking same' =>
          refine .looking fun ending left fits => ?_
          have found := same ending (more ++ left) (fits_append value outcome more rest left fits)
          have after := same' ending left fits
          rw [List.append_assoc, found]
          -- where reading fails, nothing is left for the second scan
          rcases ending.lookAt_cases (more ++ left) with ⟨e, ended, fails⟩ | passes
          · obtain ⟨rfl, rfl⟩ := List.append_eq_nil_iff.mp ended
            rw [List.nil_append] at fails ⊢
            simp only [fails, Scan.andThen]
          · rw [passes]
            exact after

theorem Reads.andThen_error {first : Ending → List Char → Result α}
    {next : Ending → α → List Char → Result β} {word rest : List Char} {e : LexError}
    (reads : Reads first word rest (.error e)) :
    Reads (fun ending text => Scan.andThen (first ending text) (next ending)) word rest
      (.error e) := by
  cases reads with
  | within nonempty same =>
      exact .within nonempty fun ending left => by simp only [same, Scan.andThen]
  | looking same =>
      refine .looking fun ending left fits => ?_
      -- both outcomes are errors, so that the same texts fit
      have found := same ending left fits
      rcases ending.lookAt_cases left with ⟨e', -, fails⟩ | passes
      · simp only [found, fails, Scan.andThen]
      · simp only [found, passes, Scan.andThen]

theorem Takes.andThen {first : Ending → List Char → Result α}
    {next : Ending → α → List Char → Result β}
    {goal : Except LexError β → List Char → List Char → Prop} (takes : Takes first good text)
    (failed : ∀ e word rest, text = word ++ rest → good (.error e) word rest →
      goal (.error e) word rest)
    (goes_on : ∀ value word rest, text = word ++ rest → good (.ok value) word rest →
      Takes (fun ending => next ending value) (fun outcome more => goal outcome (word ++ more))
        rest) :
    Takes (fun ending text => Scan.andThen (first ending text) (next ending)) goal text := by
  obtain ⟨word, rest, outcome, rfl, reads, holds⟩ := takes
  cases outcome with
  | error e => exact ⟨word, rest, .error e, rfl, reads.andThen_error, failed e word rest rfl holds⟩
  | ok value =>
      obtain ⟨more, left, outcome, rfl, reads', holds'⟩ := goes_on value word rest rfl holds
      exact ⟨word ++ more, left, outcome, by simp, reads.andThen reads', holds'⟩

theorem Takes.map {first : Ending → List Char → Result α} (f : α → Except LexError β)
    {goal : Except LexError β → List Char → List Char → Prop} (takes : Takes first good text)
    (failed : ∀ e word rest, text = word ++ rest → good (.error e) word rest →
      goal (.error e) word rest)
    (found : ∀ value word rest, text = word ++ rest → good (.ok value) word rest →
      goal (f value) word rest) :
    Takes (fun ending text => Scan.andThen (first ending text) fun value rest => (f value, rest))
      goal text := by
  obtain ⟨word, rest, outcome, rfl, reads, holds⟩ := takes
  cases outcome with
  | error e => exact ⟨word, rest, .error e, rfl, reads.andThen_error, failed e word rest rfl holds⟩
  | ok value =>
      refine ⟨word, rest, f value, rfl, ?_, found value word rest rfl holds⟩
      cases reads with
      | within nonempty same =>
          exact .within nonempty fun ending left => by simp only [same, Scan.andThen]
      | looking same =>
          refine .looking fun ending left fits => ?_
          rw [same ending left (fits_append value (f value) [] rest left fits), andThen_lookAt]
          rfl

end Reads

end Scan
end Abacus
