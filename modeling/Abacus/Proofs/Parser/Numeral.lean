import Mathlib.Data.List.Forall2
import Mathlib.Data.Nat.Digits.Defs
import Abacus.Parser
import Abacus.Proofs.Token.Spelling

/-!
Integer literals. Main statement: a numeral in any of the three bases, of whatever length, denotes
its positional value where that is in range, as a token and as a statement, and overflows elsewhere.
-/
namespace Abacus
open Number Text Scan

def Text.IsDigitOf (base : Nat) (c : Char) (d : Nat) : Prop :=
  d < base ∧ (c = Nat.digitChar d ∨ c = (Nat.digitChar d).toUpper)

/-- A numeral and its positional value: decimal if it is a zero or starts with another digit, octal
behind a zero, hexadecimal behind `0x`. -/
inductive IsNumeral : List Char → Nat → Prop where
  | decimal {numeral : List Char} {digits : List Nat}
      (spelled : List.Forall₂ (IsDigitOf 10) numeral digits) (nonempty : numeral ≠ [])
      (plain : numeral = ['0'] ∨ numeral.head? ≠ some '0') :
      IsNumeral numeral (Nat.ofDigits 10 digits.reverse)
  | octal {numeral : List Char} {digits : List Nat}
      (spelled : List.Forall₂ (IsDigitOf 8) numeral digits) (nonempty : numeral ≠ []) :
      IsNumeral ('0' :: numeral) (Nat.ofDigits 8 digits.reverse)
  | hexadecimal {numeral : List Char} {digits : List Nat}
      (spelled : List.Forall₂ (IsDigitOf 16) numeral digits) (nonempty : numeral ≠ []) :
      IsNumeral ('0' :: 'x' :: numeral) (Nat.ofDigits 16 digits.reverse)

section Digits
variable {base : Nat} {c : Char} {d : Nat}

theorem Text.IsDigitOf.elim (p : Char → Nat → Prop) (bound : Nat) (few : base ≤ bound)
    (all : ∀ d < bound, p (Nat.digitChar d) d ∧ p (Nat.digitChar d).toUpper d)
    (digit : IsDigitOf base c d) : p c d := by
  obtain ⟨small, rfl | rfl⟩ := digit
  · exact (all d (Nat.lt_of_lt_of_le small few)).1
  · exact (all d (Nat.lt_of_lt_of_le small few)).2

theorem digitValue?_of_isDigitOf (few : base ≤ 16) (digit : IsDigitOf base c d) :
    digitValue? c = some d :=
  digit.elim (fun c d => digitValue? c = some d) 16 few (by decide)

theorem isSome_digit?_of_isDigitOf (few : base ≤ 16) (digit : IsDigitOf base c d) :
    (digit? base c).isSome = true := by
  simp [digit?, digitValue?_of_isDigitOf few digit, digit.1]

theorem isDigit_of_isDigitOf (few : base ≤ 10) (digit : IsDigitOf base c d) : isDigit c = true :=
  digit.elim (fun c _ => isDigit c = true) 10 few (by decide)

end Digits

section Spelled
variable {base : Nat} {numeral : List Char} {digits : List Nat}
  (spelled : List.Forall₂ (IsDigitOf base) numeral digits)
include spelled

theorem forall_of_spelled (p : Char → Prop) (each : ∀ c d, IsDigitOf base c d → p c) :
    ∀ c ∈ numeral, p c := by
  induction spelled with
  | nil => simp
  | cons first rest ih =>
      intro c member
      rcases List.mem_cons.mp member with rfl | member
      · exact each _ _ first
      · exact ih c member

theorem foldl_of_spelled (few : base ≤ 16) (n : Nat) :
    numeral.foldl (fun n c => n * base + (digitValue? c).getD 0) n =
      n * base ^ digits.length + Nat.ofDigits base digits.reverse := by
  induction spelled generalizing n with
  | nil => simp
  | cons first rest ih =>
      rw [List.foldl_cons, ih, digitValue?_of_isDigitOf few first, Nat.ofDigits_reverse_cons,
        Option.getD_some, List.length_cons, Nat.pow_succ]
      ring

theorem positional_of_spelled (few : base ≤ 16) :
    positional base numeral = Nat.ofDigits base digits.reverse := by
  rw [positional, foldl_of_spelled spelled few, Nat.zero_mul, Nat.zero_add]

end Spelled

namespace Scan
variable (ending : Ending) (rest : List Char)

theorem endsDecimal_semicolon : ∀ c ∈ (';' :: rest).head?, EndsDecimal c := by
  rintro c ⟨⟩
  exact ⟨by decide, by decide, by decide, by decide⟩

theorem digit?_semicolon (base : Nat) :
    ∀ c ∈ (';' :: rest).head?, (digit? base c).isSome = false := by
  rintro c ⟨⟩
  rfl

structure Denotes (result : Result Token) (numeral : List Char) (value : Nat) : Prop where
  inRange : value ≤ integerLimit →
    result = (.ok (.int (Int32.ofNat value) (String.ofList numeral)), ';' :: rest)
  overflow : integerLimit < value → result.1 = .error .integerOverflow

theorem denotes_scanRadix (base : Nat) (positive : 0 < base) (front numeral : List Char)
    (all : ∀ c ∈ numeral, (digit? base c).isSome = true) :
    Denotes rest (scanRadix ending base front (numeral ++ ';' :: rest)) (front ++ numeral)
      (positional base numeral) where
  inRange bound := by
    have found := scanDigits_of_le ending base numeral _ all (digit?_semicolon rest base) positive
      bound
    simp only [scanRadix, found, Ending.lookAt_cons, andThen]
  overflow large := by
    obtain ⟨left, failed⟩ := scanDigits_of_lt ending base numeral _ all (digit?_semicolon rest base)
      large
    simp only [scanRadix, failed, andThen]

theorem denotes_scanDecimal (numeral : List Char)
    (all : ∀ c ∈ numeral, (digit? 10 c).isSome = true) :
    Denotes rest (scanDecimal ending (numeral ++ ';' :: rest)) numeral (positional 10 numeral) where
  inRange bound := by
    rw [scanDecimal_of_le ending numeral _ all (endsDecimal_semicolon rest) bound,
      Ending.lookAt_cons]
  overflow large := by
    obtain ⟨left, failed⟩ := scanDigits_of_lt ending 10 numeral _ all (digit?_semicolon rest 10)
      large
    simp only [scanDecimal, failed, andThen]

end Scan

namespace IsNumeral
variable (numeral : List Char) (value : Nat) (spelled : IsNumeral numeral value)
include spelled

theorem exists_digit : ∃ c others, numeral = c :: others ∧ isDigit c = true := by
  cases spelled with
  | octal => exact ⟨'0', _, rfl, rfl⟩
  | hexadecimal => exact ⟨'0', _, rfl, rfl⟩
  | decimal spelled nonempty plain =>
      obtain ⟨c, others, rfl⟩ := List.exists_cons_of_ne_nil nonempty
      have digit := forall_of_spelled spelled (isDigit · = true)
        fun _ _ => isDigit_of_isDigitOf (by decide)
      exact ⟨c, others, rfl, digit c List.mem_cons_self⟩

theorem denotes_scanNumber (ending : Ending) (rest : List Char) :
    Denotes rest (scanNumber ending (numeral ++ ';' :: rest)) numeral value := by
  cases spelled with
  | hexadecimal spelled nonempty =>
      rw [← positional_of_spelled spelled (by decide)]
      exact denotes_scanRadix ending rest 16 (by decide) ['0', 'x'] _
        (forall_of_spelled spelled _ fun _ _ => isSome_digit?_of_isDigitOf (by decide))
  | octal spelled nonempty =>
      rename_i numeral digits
      rw [← positional_of_spelled spelled (by decide)]
      have digit := forall_of_spelled spelled (isDigit · = true)
        fun _ _ => isDigit_of_isDigitOf (by decide)
      have radix := denotes_scanRadix ending rest 8 (by decide) ['0'] numeral
        (forall_of_spelled spelled _ fun _ _ => isSome_digit?_of_isDigitOf (by decide))
      obtain ⟨c, others, rfl⟩ := List.exists_cons_of_ne_nil nonempty
      have first := digit c List.mem_cons_self
      -- a digit behind the zero is not the `x` of a hexadecimal numeral
      have not_x : c ≠ 'x' := by
        rintro rfl
        exact absurd first (by decide)
      have front : scanNumber ending ('0' :: c :: (others ++ ';' :: rest)) =
          scanRadix ending 8 ['0'] (c :: (others ++ ';' :: rest)) := by
        simp [scanNumber, first]
      exact front ▸ radix
  | decimal spelled nonempty plain =>
      have digit := forall_of_spelled spelled (isDigit · = true)
        fun _ _ => isDigit_of_isDigitOf (by decide)
      rw [← positional_of_spelled spelled (by decide), scanNumber_of_decimal numeral
        ⟨digit, nonempty, plain⟩ ending _ (endsDecimal_semicolon rest)]
      exact denotes_scanDecimal ending rest numeral
        (forall_of_spelled spelled _ fun _ _ => isSome_digit?_of_isDigitOf (by decide))

theorem integer_eq (bound : value ≤ integerLimit) :
    Literal.integer numeral = .ok (Int32.ofNat value) := by
  cases spelled with
  | hexadecimal spelled nonempty =>
      rw [← positional_of_spelled spelled (by decide)] at bound ⊢
      exact Literal.radix_of_le 16 _ nonempty
        (forall_of_spelled spelled _ fun _ _ => isSome_digit?_of_isDigitOf (by decide)) bound
  | decimal spelled nonempty plain =>
      rw [← positional_of_spelled spelled (by decide)] at bound ⊢
      have digit := forall_of_spelled spelled (isDigit · = true)
        fun _ _ => isDigit_of_isDigitOf (by decide)
      exact integer_decimal numeral ⟨digit, nonempty, plain⟩ bound
  | octal spelled nonempty =>
      rename_i numeral digits
      rw [← positional_of_spelled spelled (by decide)] at bound ⊢
      have digit := forall_of_spelled spelled (isDigit · = true)
        fun _ _ => isDigit_of_isDigitOf (by decide)
      have value := Literal.radix_of_le 8 numeral nonempty
        (forall_of_spelled spelled _ fun _ _ => isSome_digit?_of_isDigitOf (by decide)) bound
      have no_marker := any_marker_of_digits ('0' :: numeral) (by simpa using ⟨rfl, digit⟩)
      obtain ⟨c, others, rfl⟩ := List.exists_cons_of_ne_nil nonempty
      have not_x : c ≠ 'x' := by
        rintro rfl
        exact absurd (digit 'x' List.mem_cons_self) (by decide)
      simp only [Literal.integer, no_marker, Bool.false_eq_true, ↓reduceIte]
      split
      · rename_i same
        exact absurd (List.cons.inj (List.cons.inj same).2).1 not_x
      · exact value

end IsNumeral

theorem Parser.run_integer (ending : Ending) (value number : Int32) (text : String)
    (items : List Item) (valid : Literal.integer text.toList = .ok number) :
    run ending .initial (.ok (.int value text) :: .ok (.symbol .semicolon) :: items) =
      (.statement (.leaf (.number number)), items) := by
  simp [run, step, stepStart, stepOperand, State.initial, valid, stepOperator, binaryOp?, stepClose,
    complete, endStatement]

/-- A numeral before a semicolon, in any base and of any length. If its value is in range, the next
token is the integer of this value, with the numeral as its text, and the next statement is the
number. Otherwise both requests fail with an overflow. -/
theorem Source.next_numeral (numeral : List Char) (value : Nat) (spelled : IsNumeral numeral value)
    (rest : List Char) (ending : Ending) :
    let source : Source := ⟨numeral ++ ';' :: rest, ending⟩
    (value ≤ 2147483647 → ∃ n : Int32, n.toInt = value ∧
      source.next = (.ok (.int n (String.ofList numeral)), ⟨';' :: rest, ending⟩) ∧
      source.stream.statement.1 = .statement (.leaf (.number n))) ∧
    (2147483647 < value → source.next.1 = .error .integerOverflow ∧
      source.stream.statement.1 = .error (.lexical .integerOverflow)) := by
  intro source
  have denotes := spelled.denotes_scanNumber numeral value ending rest
  have scanned : scan ending (numeral ++ ';' :: rest) =
      scanNumber ending (numeral ++ ';' :: rest) := by
    obtain ⟨c, others, rfl, digit⟩ := spelled.exists_digit
    exact scan_digit ending c _ digit
  rw [← scanned] at denotes
  constructor
  · intro bound
    have token := denotes.inRange bound
    refine ⟨Int32.ofNat value, Int32.toInt_ofNat_of_lt (Nat.lt_succ_of_le bound), ?_, ?_⟩
    · simp only [source, Source.next, token]
    · have semicolon := scan_symbol ending ';' .semicolon rest rfl rfl
      have items := scanAll_of_scan_ok ending _ _ _ token (by simp)
      rw [scanAll_of_scan_ok ending _ _ _ semicolon (by simp)] at items
      simp only [source, Source.stream, TokenStream.statement, items]
      rw [Parser.run_integer ending _ (Int32.ofNat value)]
      simpa using spelled.integer_eq numeral value bound
  · intro large
    have failed := denotes.overflow large
    have items := scanAll_of_ne_nil ending (numeral ++ ';' :: rest) (by simp)
    refine ⟨failed, ?_⟩
    simp only [source, Source.stream, TokenStream.statement, items, failed, Item.isEnd]
    rfl

/-- The greatest integer in hexadecimal, with zeros in front and letters of both cases, and one more
than it in octal. -/
theorem Source.next_numeral_limit :
    let greatest : Source := ⟨"0x007FfffFff;y".toList, .finished⟩
    let tooGreat : Source := ⟨"020000000000;y".toList, .finished⟩
    (IsNumeral "0x007FfffFff".toList 2147483647 ∧
      ∃ n : Int32, n.toInt = (2147483647 : Nat) ∧ greatest.next.1 = .ok (.int n "0x007FfffFff") ∧
        greatest.stream.statement.1 = .statement (.leaf (.number n))) ∧
    IsNumeral "020000000000".toList 2147483648 ∧ tooGreat.next.1 = .error .integerOverflow ∧
      tooGreat.stream.statement.1 = .error (.lexical .integerOverflow) := by
  intro greatest tooGreat
  have hexadecimal : IsNumeral "0x007FfffFff".toList 2147483647 :=
    @IsNumeral.hexadecimal "007FfffFff".toList [0, 0, 7, 15, 15, 15, 15, 15, 15, 15]
      (by simp [IsDigitOf, show (Nat.digitChar 15).toUpper = 'F' from rfl]) (by decide)
  have octal : IsNumeral "020000000000".toList 2147483648 :=
    @IsNumeral.octal "20000000000".toList [2, 0, 0, 0, 0, 0, 0, 0, 0, 0, 0] (by simp [IsDigitOf])
      (by decide)
  obtain ⟨n, value, token, statement⟩ :=
    (next_numeral _ _ hexadecimal ['y'] .finished).1 (by decide)
  obtain ⟨failed, reported⟩ := (next_numeral _ _ octal ['y'] .finished).2 (by decide)
  exact ⟨⟨hexadecimal, n, value, congrArg Prod.fst token, statement⟩, octal, failed, reported⟩

end Abacus
