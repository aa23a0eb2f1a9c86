import Abacus.Proofs.Token.Reader
import Abacus.Proofs.Token.Spelling

/-!
Numbers from a reader. Each scanner here reads and puts back single characters; the statement beside
it says that it gives what the scan of what is left gives, and leaves what that leaves.
-/
namespace Abacus
open Text Number

namespace Reading
variable {source : Source} {r : Reader}

section Loops

def readWhile (p : Char → Bool) (front : List Char) : Reading (List Char) := fun r =>
  match _found : read r with
  | (.error e, r) => (.error e, r)
  | (.ok none, r) => (.ok front, r)
  | (.ok (some c), r) =>
      if p c then readWhile p (front ++ [c]) r else (.ok front, r.putback c)
termination_by r => r.remaining.length
decreasing_by exact length_lt_of_read _found

theorem readWhile_eq (p : Char → Bool) (front : List Char) :
    readWhile p front = (do
      match ← read with
      | none => pure front
      | some c => if p c then readWhile p (front ++ [c]) else do
          putback c
          pure front) := by
  funext r
  rw [readWhile, bind_apply]
  split <;> simp only [*]
  · rfl
  · split <;> rfl

def spanFrom (ending : Ending) (p : Char → Bool) (front text : List Char) :
    Scan.Result (List Char) :=
  (ending.lookAt (text.dropWhile p) (.ok (front ++ text.takeWhile p)), text.dropWhile p)

theorem refines_readWhile (p : Char → Bool) (front : List Char) (accounted : r.Accounted source) :
    Refines source (readWhile p front r) (spanFrom source.ending p front r.remaining) := by
  generalize left : r.remaining = text
  induction text generalizing r front with
  | nil =>
      rw [readWhile_eq]
      refine refines_read_nil accounted left fun _ ended => ?_
      simpa using refines_pure front ended
  | cons c text ih =>
      rw [readWhile_eq]
      refine refines_read_cons left ?_
      cases satisfied : p c with
      | true =>
          have more := ih (front ++ [c]) (accounted.gave left) rfl
          simpa [spanFrom, satisfied] using more
      | false =>
          have stopped := refines_pure front (accounted.putback left)
          simpa [spanFrom, satisfied, bind_putback] using stopped

def scanDigits (base n : Nat) (front : List Char) : Reading (Nat × List Char) := fun r =>
  match _found : read r with
  | (.error e, r) => (.error e, r)
  | (.ok none, r) => (.ok (n, front), r)
  | (.ok (some c), r) =>
      match digit? base c with
      | none => (.ok (n, front), r.putback c)
      | some d =>
          if integerLimit < n * base + d then (.error .integerOverflow, r)
          else scanDigits base (n * base + d) (front ++ [c]) r
termination_by r => r.remaining.length
decreasing_by exact length_lt_of_read _found

theorem scanDigits_eq (base n : Nat) (front : List Char) :
    scanDigits base n front = (do
      match ← read with
      | none => pure (n, front)
      | some c =>
          match digit? base c with
          | none => do
              putback c
              pure (n, front)
          | some d =>
              if integerLimit < n * base + d then fail .integerOverflow
              else scanDigits base (n * base + d) (front ++ [c])) := by
  funext r
  rw [scanDigits, bind_apply]
  split <;> simp only [*]
  · rfl
  · split <;> simp only [*]
    · rfl
    · split <;> rfl

def digitsFrom (ending : Ending) (base n : Nat) (front text : List Char) :
    Scan.Result (Nat × List Char) :=
  let digits := text.takeWhile fun c => (digit? base c).isSome
  let rest := text.dropWhile fun c => (digit? base c).isSome
  match Scan.bounded base n digits with
  | .error left => (.error .integerOverflow, left ++ rest)
  | .ok m => (ending.lookAt rest (.ok (m, front ++ digits)), rest)

section Digits
variable (ending : Ending) (base n : Nat) (front text : List Char) (c : Char)

theorem digitsFrom_cons_of_none (no_digit : digit? base c = none) :
    digitsFrom ending base n front (c :: text) = (.ok (n, front), c :: text) := by
  simp [digitsFrom, no_digit, Scan.bounded]

theorem digitsFrom_cons_of_some (d : Nat) (digit : digit? base c = some d) :
    digitsFrom ending base n front (c :: text) =
      if integerLimit < n * base + d then (.error .integerOverflow, text)
      else digitsFrom ending base (n * base + d) (front ++ [c]) text := by
  have value : digitValue? c = some d := (Option.filter_eq_some_iff.mp digit).1
  simp only [digitsFrom, List.takeWhile_cons, List.dropWhile_cons, digit, Option.isSome_some,
    ↓reduceIte, Scan.bounded, value, Option.getD_some]
  by_cases overflow : integerLimit < n * base + d
  · simp [overflow]
  · simp [overflow]

theorem digitsFrom_zero :
    digitsFrom ending base 0 [] text = Scan.scanDigits ending base text :=
  rfl

theorem digitsFrom_first (digit : isDigit c = true) :
    digitsFrom ending 10 ((digitValue? c).getD 0) [c] text =
      Scan.scanDigits ending 10 (c :: text) := by
  obtain ⟨d, found⟩ := Option.isSome_iff_exists.mp ((Scan.isSome_digit?_ten c).trans digit)
  obtain ⟨value, small⟩ := Option.filter_eq_some_iff.mp found
  have bound : ¬ integerLimit < 0 * 10 + d := by
    simp only [decide_eq_true_eq] at small
    simp only [integerLimit]
    omega
  rw [← digitsFrom_zero, digitsFrom_cons_of_some _ _ _ _ _ _ _ found, if_neg bound, value]
  simp

end Digits

theorem refines_scanDigits (base n : Nat) (front : List Char) (accounted : r.Accounted source) :
    Refines source (scanDigits base n front r)
      (digitsFrom source.ending base n front r.remaining) := by
  generalize left : r.remaining = text
  induction text generalizing r n front with
  | nil =>
      rw [scanDigits_eq]
      refine refines_read_nil accounted left fun _ ended => ?_
      simpa using refines_pure (n, front) ended
  | cons c text ih =>
      rw [scanDigits_eq]
      refine refines_read_cons left ?_
      cases digit : digit? base c with
      | none =>
          rw [digitsFrom_cons_of_none _ _ _ _ _ _ digit]
          simp only [digit, bind_putback]
          exact refines_pure (n, front) (accounted.putback left)
      | some d =>
          rw [digitsFrom_cons_of_some _ _ _ _ _ _ _ digit]
          simp only [digit]
          split
          · exact refines_fail _ (accounted.gave left)
          · exact ih _ _ (accounted.gave left) rfl

end Loops

section Numbers

def readSign : Reading (List Char) := do
  match ← read with
  | none => fail .malformedFloat
  | some c =>
      if c = '-' ∨ c = '+' then pure [c]
      else do
        putback c
        pure []

def signFrom (ending : Ending) : List Char → Scan.Result (List Char)
  | [] => (ending.lookAt [] (.error .malformedFloat), [])
  | c :: text => (.ok (Scan.splitSign (c :: text)).1, (Scan.splitSign (c :: text)).2)

theorem refines_readSign (accounted : r.Accounted source) :
    Refines source (readSign r) (signFrom source.ending r.remaining) := by
  rcases left : r.remaining with - | ⟨c, text⟩
  · exact refines_read_nil accounted left fun _ ended => refines_fail _ ended
  · refine refines_read_cons left ?_
    simp only [signFrom]
    by_cases sign : c = '-' ∨ c = '+'
    · simp only [sign, ↓reduceIte]
      rcases sign with rfl | rfl
      · exact refines_pure ['-'] (accounted.gave left)
      · exact refines_pure ['+'] (accounted.gave left)
    · have unsigned : Scan.splitSign (c :: text) = ([], c :: text) := by
        unfold Scan.splitSign
        split <;> simp_all
      simp only [sign, ↓reduceIte, bind_putback, unsigned]
      exact refines_pure [] (accounted.putback left)

def scanPower (marker : Char) (sign : List Char) : Reading (Option Int × List Char) := do
  match ← read with
  | none => fail .malformedFloat
  | some d =>
      if isDigit d then do
        let (n, digits) ← scanDigits 10 ((digitValue? d).getD 0) [d]
        pure (some (if sign = ['-'] then -(n : Int) else n), marker :: (sign ++ digits))
      else fail .malformedFloat

theorem refines_scanPower (marker : Char) (sign : List Char) (accounted : r.Accounted source) :
    Refines source (scanPower marker sign r)
      (Scan.scanPower source.ending marker sign r.remaining) := by
  rcases left : r.remaining with - | ⟨d, text⟩
  · exact refines_read_nil accounted left fun _ ended => refines_fail _ ended
  · refine refines_read_cons left ?_
    cases digit : isDigit d with
    | false =>
        simp only [Scan.scanPower, digit, Bool.false_eq_true, ↓reduceIte]
        exact refines_fail _ (accounted.gave left)
    | true =>
        simp only [Scan.scanPower, digit, ↓reduceIte, ← digitsFrom_first _ _ _ digit]
        exact (refines_scanDigits 10 _ _ (accounted.gave left)).bind fun value r' => refines_pure _

def scanExponent : Reading (Option Int × List Char) := do
  match ← read with
  | none => pure (none, [])
  | some marker =>
      if marker = 'e' ∨ marker = 'E' then do
        let sign ← readSign
        scanPower marker sign
      else do
        putback marker
        pure (none, [])

theorem scanExponent_of_marker (ending : Ending) (marker : Char) (text : List Char)
    (is_marker : marker = 'e' ∨ marker = 'E') :
    Scan.scanExponent ending (marker :: text) =
      Scan.andThen (signFrom ending text) (Scan.scanPower ending marker) := by
  rw [Scan.scanExponent, if_pos is_marker]
  cases text with
  | nil => cases ending <;> rfl
  | cons c text => rfl

theorem refines_scanExponent (accounted : r.Accounted source) :
    Refines source (scanExponent r) (Scan.scanExponent source.ending r.remaining) := by
  rcases left : r.remaining with - | ⟨marker, text⟩
  · exact refines_read_nil accounted left fun _ ended => refines_pure _ ended
  · refine refines_read_cons left ?_
    by_cases is_marker : marker = 'e' ∨ marker = 'E'
    · rw [scanExponent_of_marker _ _ _ is_marker]
      simp only [is_marker, ↓reduceIte]
      exact (refines_readSign (accounted.gave left)).bind fun sign _ =>
        refines_scanPower marker sign
    · simp only [is_marker, ↓reduceIte, Scan.scanExponent, bind_putback]
      exact refines_pure _ (accounted.putback left)

def scanFraction (whole : Nat) (front : List Char) : Reading Token := do
  let digits ← readWhile isDigit []
  let (exponent, spelling) ← scanExponent
  pure (Scan.floatToken whole digits exponent (String.ofList (front ++ digits ++ spelling)))

theorem refines_scanFraction (whole : Nat) (front : List Char) (accounted : r.Accounted source) :
    Refines source (scanFraction whole front r)
      (Scan.scanFraction source.ending whole front r.remaining) := by
  refine (refines_readWhile isDigit [] accounted).bind fun digits r' accounted' => ?_
  exact (refines_scanExponent accounted').bind fun exponent r'' => refines_pure _

def scanRadix (base : Nat) (front : List Char) : Reading Token := do
  let (n, digits) ← scanDigits base 0 []
  pure (.int (Int32.ofNat n) (String.ofList (front ++ digits)))

theorem refines_scanRadix (base : Nat) (front : List Char) (accounted : r.Accounted source) :
    Refines source (scanRadix base front r)
      (Scan.scanRadix source.ending base front r.remaining) :=
  (refines_scanDigits base 0 [] accounted).bind fun _ _ => refines_pure _

def scanInteger (n : Nat) (digits : List Char) : Reading Token := do
  let (exponent, spelling) ← scanExponent
  match Scan.integerToken n exponent (String.ofList (digits ++ spelling)) with
  | .ok token => pure token
  | .error e => fail e

theorem refines_scanInteger (n : Nat) (digits : List Char) (accounted : r.Accounted source) :
    Refines source (scanInteger n digits r)
      (Scan.scanInteger source.ending n digits r.remaining) := by
  refine (refines_scanExponent accounted).bind fun (exponent, spelling) r' accounted' => ?_
  dsimp only
  cases Scan.integerToken n exponent (String.ofList (digits ++ spelling)) with
  | ok token => exact refines_pure token accounted'
  | error e => exact refines_fail e accounted'

def scanTail (n : Nat) (digits : List Char) : Reading Token := do
  match ← read with
  | none => scanInteger n digits
  | some c =>
      if c = '.' then scanFraction n (digits ++ ['.'])
      else do
        putback c
        scanInteger n digits

theorem refines_scanTail (n : Nat) (digits : List Char) (accounted : r.Accounted source) :
    Refines source (scanTail n digits r) (Scan.scanTail source.ending n digits r.remaining) := by
  rcases left : r.remaining with - | ⟨c, text⟩
  · have same : Scan.scanTail source.ending n digits [] =
        (source.ending.lookAt [] (Scan.scanInteger .finished n digits []).1, []) := by
      cases source.ending <;> rfl
    rw [same]
    refine refines_read_nil accounted left fun finished ended => ?_
    have ran := refines_scanInteger n digits ended
    rw [finished] at ran
    exact ran
  · refine refines_read_cons left ?_
    by_cases point : c = '.'
    · subst point
      exact refines_scanFraction n (digits ++ ['.']) (accounted.gave left)
    · rw [Scan.scanTail_of_no_point _ _ _ _ (by simpa using point)]
      simp only [point, ↓reduceIte, bind_putback]
      exact refines_scanInteger n digits (accounted.putback left)

def scanDecimal (first : Char) : Reading Token := do
  let (n, digits) ← scanDigits 10 ((digitValue? first).getD 0) [first]
  scanTail n digits

theorem refines_scanDecimal (first : Char) (digit : isDigit first = true)
    (accounted : r.Accounted source) :
    Refines source (scanDecimal first r)
      (Scan.scanDecimal source.ending (first :: r.remaining)) := by
  rw [Scan.scanDecimal, ← digitsFrom_first _ _ _ digit]
  exact (refines_scanDigits 10 _ _ accounted).bind fun value r' => refines_scanTail _ _

def scanNumber (first : Char) : Reading Token :=
  if first = '0' then do
    match ← read with
    | none => scanDecimal first
    | some d =>
        if d = 'x' then scanRadix 16 ['0', 'x']
        else do
          putback d
          if isDigit d then scanRadix 8 ['0'] else scanDecimal first
  else scanDecimal first

theorem refines_scanNumber (first : Char) (digit : isDigit first = true)
    (accounted : r.Accounted source) :
    Refines source (scanNumber first r)
      (Scan.scanNumber source.ending (first :: r.remaining)) := by
  by_cases zero : first = '0'
  · subst zero
    rw [scanNumber, if_pos rfl]
    rcases left : r.remaining with - | ⟨d, text⟩
    · have same : Scan.scanNumber source.ending ['0'] =
          (source.ending.lookAt [] (Scan.scanDecimal .finished ['0']).1, []) := by
        cases source.ending <;> rfl
      rw [same]
      refine refines_read_nil accounted left fun finished ended => ?_
      have ran := refines_scanDecimal '0' digit ended
      rw [finished] at ran
      exact ran
    · refine refines_read_cons left ?_
      by_cases hexadecimal : d = 'x'
      · subst hexadecimal
        exact refines_scanRadix 16 ['0', 'x'] (accounted.gave left)
      · have same : Scan.scanNumber source.ending ('0' :: d :: text) =
            if isDigit d then Scan.scanRadix source.ending 8 ['0'] (d :: text)
            else Scan.scanDecimal source.ending ('0' :: d :: text) := by
          rw [Scan.scanNumber]
          simp [hexadecimal]
        simp only [same, hexadecimal, ↓reduceIte, bind_putback]
        split
        · exact refines_scanRadix 8 ['0'] (accounted.putback left)
        · exact refines_scanDecimal '0' digit (accounted.putback left)
  · rw [scanNumber, if_neg zero, Scan.scanNumber_eq_scanDecimal]
    · exact refines_scanDecimal first digit accounted
    · intro d others same
      exact absurd (List.cons.inj same).1 zero

end Numbers

end Reading
end Abacus
