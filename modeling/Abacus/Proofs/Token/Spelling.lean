import Mathlib.Data.List.TakeWhile
import Abacus.Parser.Literal
import Abacus.Proofs.Text.Digit
import Abacus.Proofs.Token.Separation

/-!
Texts that are one token each: the spelling of a symbol, a name that is not reserved, and a decimal
numeral.
-/
namespace Abacus
open Number Text Scan

theorem scan_spelling (s : Symbol) : scan .finished s.spelling.toList = (.ok (.symbol s), []) := by
  cases s <;> rfl

def digitChars : List Char :=
  ['0', '1', '2', '3', '4', '5', '6', '7', '8', '9']

theorem mem_digitChars_of_isDigit (c : Char) (digit : isDigit c = true) : c ∈ digitChars := by
  have code : c.toNat ∈ digitChars.map Char.toNat := by
    simp only [isDigit, Bool.and_eq_true, decide_eq_true_eq] at digit
    have lower : '0'.toNat ≤ c.toNat := digit.1
    have upper : c.toNat ≤ '9'.toNat := digit.2
    simp only [digitChars, List.map_cons, List.map_nil, List.mem_cons, Char.reduceToNat] at *
    omega
  obtain ⟨d, member, same⟩ := List.mem_map.mp code
  rwa [← Char.toNat_inj.mp same]

theorem scan_symbol (ending : Ending) (c : Char) (s : Symbol) (text : List Char)
    (symbol : Symbol.ofChar? c = some s) (alone : s.looksAhead = false) :
    scan ending (c :: text) = (.ok (.symbol s), text) := by
  have symbols (s : Symbol) : s.spelling.toList.any isBlank = false := by
    cases s <;> decide +kernel
  have not_blank : isBlank c = false := by
    simpa [spelling_of_ofChar? c s symbol] using symbols s
  have not_slash : c ≠ '/' := by
    rintro rfl
    cases symbol
    simp [Symbol.looksAhead] at alone
  have skipped : Trivia.skip (c :: text) = some (c :: text) := by
    rw [Trivia.skip, Trivia.skipFrom_blanks_cons c text fun same => absurd same not_slash,
      not_blank]
    rfl
  simp only [scan, skipped, scanToken, scanFrom, symbol]
  exact scanSymbol_of_not_looksAhead ending s text alone

theorem any_isNameStart_spelling (s : Symbol) : s.spelling.toList.any isNameStart = false := by
  cases s <;> decide +kernel

theorem ofChar?_of_isNameStart (c : Char) (start : isNameStart c = true) :
    Symbol.ofChar? c = none := by
  cases found : Symbol.ofChar? c with
  | none => rfl
  | some s => simpa [spelling_of_ofChar? c s found, start] using any_isNameStart_spelling s

theorem isDigit_of_isNameStart (c : Char) (start : isNameStart c = true) : isDigit c = false := by
  have digits : (digitChars.all fun c => !isNameStart c) = true := by decide +kernel
  cases digit : isDigit c with
  | false => rfl
  | true =>
      have no_start := List.all_eq_true.mp digits c (mem_digitChars_of_isDigit c digit)
      simp [start] at no_start

theorem isBlank_of_isNameChar (c : Char) (name : isNameChar c = true) : isBlank c = false := by
  cases blank : isBlank c with
  | false => rfl
  | true => rw [(separates_of_isBlank c blank).notName] at name; simp at name

theorem skip_cons_of_isNameChar (c : Char) (text : List Char) (name : isNameChar c = true) :
    Trivia.skip (c :: text) = some (c :: text) := by
  have not_slash : c ≠ '/' := by
    rintro rfl
    exact absurd name (by decide +kernel)
  rw [Trivia.skip, Trivia.skipFrom_blanks_cons c text fun same => absurd same not_slash,
    isBlank_of_isNameChar c name]
  rfl

theorem scan_name (text : List Char) (name : isName text = true)
    (free : Word.ofSpelling? (String.ofList text) = none) :
    scan .finished text = (.ok (.name (String.ofList text)), []) := by
  cases text with
  | nil => simp [isName] at name
  | cons c text =>
      obtain ⟨start, -⟩ : isNameStart c = true ∧ ∀ d ∈ text, isNameChar d = true := by
        simpa [isName] using name
      have all := isNameChar_of_mem_isName (c :: text) name
      have not_char : c ≠ '\'' := by rintro rfl; exact absurd start (by decide +kernel)
      have not_quote : c ≠ '"' := by rintro rfl; exact absurd start (by decide +kernel)
      obtain ⟨taken, left⟩ := span_append isNameChar (c :: text) [] all (by simp)
      rw [List.append_nil] at taken left
      simp only [scan, skip_cons_of_isNameChar c text (all c List.mem_cons_self), scanToken,
        scanFrom, ofChar?_of_isNameStart c start, not_char, not_quote,
        isDigit_of_isNameStart c start, start, ↓reduceIte, Bool.false_eq_true, scanName, scanWhile,
        taken, left, Ending.lookAt_finished, andThen, Token.ofIdentifier, free]

section Numerals

theorem scan_digit (ending : Ending) (c : Char) (text : List Char) (digit : isDigit c = true) :
    scan ending (c :: text) = scanNumber ending (c :: text) := by
  have member := mem_digitChars_of_isDigit c digit
  have symbols : (digitChars.all fun c => (Symbol.ofChar? c).isNone) = true := by decide
  have no_symbol := Option.isNone_iff_eq_none.mp (List.all_eq_true.mp symbols c member)
  have not_char : c ≠ '\'' := by rintro rfl; simp [digitChars] at member
  have not_quote : c ≠ '"' := by rintro rfl; simp [digitChars] at member
  simp only [scan, skip_cons_of_isNameChar c text (by simp [isNameChar, digit]), scanToken,
    scanFrom, no_symbol, not_char, not_quote, digit, ↓reduceIte]

theorem bounded_of_le (base n : Nat) (positive : 0 < base) (digits : List Char)
    (bound : digits.foldl (fun n c => n * base + (digitValue? c).getD 0) n ≤ integerLimit) :
    bounded base n digits =
      .ok (digits.foldl (fun n c => n * base + (digitValue? c).getD 0) n) := by
  induction digits generalizing n with
  | nil => rfl
  | cons c digits ih =>
      -- a value can only grow with every further digit
      have grows : ∀ (digits : List Char) (n : Nat),
          n ≤ digits.foldl (fun n c => n * base + (digitValue? c).getD 0) n := by
        intro digits
        induction digits with
        | nil => exact fun n => Nat.le_refl n
        | cons d digits ih =>
            intro n
            have := Nat.le_mul_of_pos_right n positive
            exact Nat.le_trans (by omega) (ih (n * base + (digitValue? d).getD 0))
      rw [List.foldl_cons] at bound ⊢
      have := grows digits (n * base + (digitValue? c).getD 0)
      rw [bounded, if_neg (by omega), ih _ bound]

theorem bounded_of_lt (base n : Nat) (digits : List Char) (start : n ≤ integerLimit)
    (large : integerLimit < digits.foldl (fun n c => n * base + (digitValue? c).getD 0) n) :
    ∃ left, bounded base n digits = .error left := by
  induction digits generalizing n with
  | nil =>
      rw [List.foldl_nil] at large
      omega
  | cons c digits ih =>
      rw [bounded]
      split
      · exact ⟨digits, rfl⟩
      · rename_i next
        exact ih _ (Nat.le_of_not_lt next) large

section Digits
variable (ending : Ending) (base : Nat) (digits next : List Char)
  (all : ∀ c ∈ digits, (digit? base c).isSome = true)
  (stop : ∀ c ∈ next.head?, (digit? base c).isSome = false)
include all stop

theorem scanDigits_of_le (positive : 0 < base) (bound : positional base digits ≤ integerLimit) :
    scanDigits ending base (digits ++ next) =
      (ending.lookAt next (.ok (positional base digits, digits)), next) := by
  obtain ⟨taken, left⟩ := span_append _ digits next all stop
  simp only [scanDigits]
  rw [taken, left, bounded_of_le base 0 positive digits bound]
  rfl

theorem scanDigits_of_lt (large : integerLimit < positional base digits) :
    ∃ left, scanDigits ending base (digits ++ next) = (.error .integerOverflow, left) := by
  obtain ⟨taken, left⟩ := span_append _ digits next all stop
  obtain ⟨unread, failed⟩ := bounded_of_lt base 0 digits (Nat.zero_le _) large
  refine ⟨unread ++ next, ?_⟩
  simp only [scanDigits]
  rw [taken, left, failed]

end Digits

structure EndsDecimal (c : Char) : Prop where
  notDigit : isDigit c = false
  notPoint : c ≠ '.'
  noMarker : ¬ (c = 'e' ∨ c = 'E')
  notRadix : c ≠ 'x'

theorem scanDecimal_of_le (ending : Ending) (digits next : List Char)
    (all : ∀ c ∈ digits, (digit? 10 c).isSome = true) (stop : ∀ c ∈ next.head?, EndsDecimal c)
    (bound : positional 10 digits ≤ integerLimit) :
    scanDecimal ending (digits ++ next) =
      (ending.lookAt next
        (.ok (.int (Int32.ofNat (positional 10 digits)) (String.ofList digits))), next) := by
  have found := scanDigits_of_le ending 10 digits next all
    (fun c head => (isSome_digit?_ten c).trans (stop c head).notDigit) (by decide) bound
  have tail := scanTail_of_plain ending (positional 10 digits) digits next
    fun c head => ⟨(stop c head).notPoint, (stop c head).noMarker⟩
  rw [scanDecimal, found]
  rcases ending.lookAt_cases next with ⟨e, -, fails⟩ | passes
  · simp only [fails, andThen]
  · rw [passes]
    exact tail

theorem any_marker_of_digits (numeral : List Char) (digits : ∀ c ∈ numeral, isDigit c = true) :
    (numeral.any fun c => c = 'e' ∨ c = 'E') = false := by
  rw [List.any_eq_false]
  intro c member
  have digit := mem_digitChars_of_isDigit c (digits c member)
  have markers : (digitChars.all fun c => !decide (c = 'e' ∨ c = 'E')) = true := by decide
  simpa using List.all_eq_true.mp markers c digit

theorem Literal.radix_of_le (base : Nat) (digits : List Char) (nonempty : digits ≠ [])
    (all : ∀ c ∈ digits, (digit? base c).isSome = true)
    (bound : positional base digits ≤ integerLimit) :
    radix base digits = .ok (Int32.ofNat (positional base digits)) := by
  have not_nil : digits.isEmpty = false := by simp [nonempty]
  simp only [radix, not_nil, List.all_eq_true.mpr all, Bool.not_true, Bool.or_self,
    Bool.false_eq_true, ↓reduceIte]
  rw [if_neg (by omega)]

/-- Decimal digits without a zero before others, which would make the numeral an octal one. -/
structure IsDecimal (numeral : List Char) : Prop where
  digits : ∀ c ∈ numeral, isDigit c = true
  nonempty : numeral ≠ []
  plain : numeral = ['0'] ∨ numeral.head? ≠ some '0'

section Decimal
variable (numeral : List Char) (decimal : IsDecimal numeral)
include decimal

theorem scanNumber_of_decimal (ending : Ending) (next : List Char)
    (stop : ∀ c ∈ next.head?, EndsDecimal c) :
    scanNumber ending (numeral ++ next) = scanDecimal ending (numeral ++ next) := by
  refine scanNumber_eq_scanDecimal ending _ fun d others same => ?_
  rcases decimal.plain with rfl | plain
  · obtain rfl : next = d :: others := (List.cons.inj same).2
    exact ⟨(stop d rfl).notRadix, (stop d rfl).notDigit⟩
  · obtain ⟨c, numeral, rfl⟩ := List.exists_cons_of_ne_nil decimal.nonempty
    exact absurd (congrArg some (List.cons.inj same).1) plain

theorem scan_decimal (bound : positional 10 numeral ≤ integerLimit) :
    scan .finished numeral =
      (.ok (.int (Int32.ofNat (positional 10 numeral)) (String.ofList numeral)), []) := by
  have digit (c : Char) (member : c ∈ numeral) : (digit? 10 c).isSome = true :=
    (isSome_digit?_ten c).trans (decimal.digits c member)
  have scanned : scanNumber .finished numeral =
      (.ok (.int (Int32.ofNat (positional 10 numeral)) (String.ofList numeral)), []) := by
    have number := scanNumber_of_decimal numeral decimal .finished [] (by simp)
    rwa [scanDecimal_of_le .finished numeral [] digit (by simp) bound, List.append_nil] at number
  cases numeral with
  | nil => exact absurd rfl decimal.nonempty
  | cons c numeral =>
      rw [scan_digit .finished c numeral (decimal.digits c List.mem_cons_self), scanned]

theorem integer_decimal (bound : positional 10 numeral ≤ integerLimit) :
    Literal.integer numeral = .ok (Int32.ofNat (positional 10 numeral)) := by
  have no_marker := any_marker_of_digits numeral decimal.digits
  have value := Literal.radix_of_le 10 numeral decimal.nonempty
    (fun c member => (isSome_digit?_ten c).trans (decimal.digits c member)) bound
  have plain := decimal.plain
  unfold Literal.integer
  split
  · simp at plain
  · simp only [no_marker, Bool.false_eq_true, ↓reduceIte]
    split
    · simp at plain
    · exact value

end Decimal

theorem isDecimal_toDigits (n : Nat) : IsDecimal (Nat.toDigits 10 n) where
  digits := isDigit_of_mem_toDigits n
  nonempty := Nat.toDigits_ne_nil
  plain := by
    rcases Nat.eq_zero_or_pos n with rfl | positive
    · exact .inl (Nat.toDigits_zero 10)
    · exact .inr (head?_toDigits 10 (by decide) n positive)

end Numerals

end Abacus
