import Abacus.Token.SpelledBy
import Abacus.Token.Takes

/-!
Scanning makes progress: every scanner takes a word off the text, and the word of a token is not
empty and spells the token.

What may follow a token and what a scan leaves is all derived from these statements, of which there
is one for each scanner.
-/
namespace Abacus.Scan
open Text

/-- The token that is found is written as `front` and the word, and ends there. -/
def Finds (front : List Char) (outcome : Except LexError Token) (word rest : List Char) : Prop :=
  ∀ t, outcome = .ok t → t.SpelledBy (front ++ word) ∧ t.EndsBefore rest

section Numbers

theorem takes_scanWhile (p : Char → Bool) (apart : ∀ b, Separates b → p b = false)
    (text : List Char) :
    Takes (fun ending => scanWhile ending p)
      (fun outcome word rest => outcome = .ok word ∧ (∀ c ∈ word, p c = true) ∧
        ∀ c ∈ rest.head?, p c = false) text := by
  have all : ∀ c ∈ text.takeWhile p, p c = true := List.all_eq_true.mp List.all_takeWhile
  have stop := head?_dropWhile p text
  refine ⟨text.takeWhile p, text.dropWhile p, .ok (text.takeWhile p),
    List.takeWhile_append_dropWhile.symm, .looking fun ending next fits => ?_, rfl, all, stop⟩
  obtain ⟨taken, left⟩ := span_append p _ next all (fits.forall_head p stop apart)
  simp only [scanWhile, taken, left]

theorem bounded_eq_error (base n : Nat) (digits left : List Char)
    (overflow : bounded base n digits = .error left) :
    ∃ used, used ≠ [] ∧ digits = used ++ left ∧
      ∀ more, bounded base n (used ++ more) = .error more := by
  fun_induction bounded base n digits with
  | case1 => simp at overflow
  | case2 n c digits next past =>
      obtain rfl : digits = left := by simpa using overflow
      exact ⟨[c], by simp, rfl, fun more => if_pos past⟩
  | case3 n c digits next within ih =>
      obtain ⟨used, -, rfl, same⟩ := ih overflow
      exact ⟨c :: used, by simp, rfl, fun more => (if_neg within).trans (same more)⟩

theorem takes_scanDigits (base : Nat) (text : List Char) :
    Takes (fun ending => scanDigits ending base)
      (fun outcome word rest => (∀ value, outcome = .ok value → value.2 = word) ∧
        ((∃ c ∈ (word ++ rest).head?, (digit? base c).isSome = true) → word ≠ [])) text := by
  have split := text.takeWhile_append_dropWhile (p := fun c => (digit? base c).isSome)
  have all := List.all_eq_true.mp (text.all_takeWhile (p := fun c => (digit? base c).isSome))
  have stop := head?_dropWhile (fun c => (digit? base c).isSome) text
  generalize digits_eq : text.takeWhile (fun c => (digit? base c).isSome) = digits at split all
  generalize text.dropWhile (fun c => (digit? base c).isSome) = rest at split stop
  cases counted : bounded base 0 digits with
  | error left =>
      obtain ⟨used, nonempty, rfl, same⟩ := bounded_eq_error base 0 _ left counted
      have used_digits : ∀ c ∈ used, (digit? base c).isSome = true := fun c member =>
        all c (List.mem_append_left _ member)
      refine ⟨used, left ++ rest, .error .integerOverflow, by simp [← split],
        .within nonempty fun ending next => ?_, by simp, fun _ => nonempty⟩
      simp only [scanDigits]
      rw [List.takeWhile_append_of_pos used_digits, List.dropWhile_append_of_pos used_digits, same]
      simp only [List.takeWhile_append_dropWhile]
  | ok n =>
      refine ⟨digits, rest, .ok (n, digits), split.symm, .looking fun ending next fits => ?_, ?_,
        ?_⟩
      · obtain ⟨taken, left⟩ := span_append _ digits next all
          (fits.forall_head _ stop fun b apart => by simp [apart.digit? base])
        simp only [scanDigits]
        rw [taken, left, counted]
      · rintro value ⟨⟩
        rfl
      · rintro ⟨c, first, digit⟩ rfl
        simp [stop c first] at digit

theorem isSome_digit?_ten (c : Char) : (digit? 10 c).isSome = isDigit c := by
  have codes : '0'.toNat = 48 ∧ '9'.toNat = 57 := by decide
  cases digit : isDigit c with
  | true =>
      have upper : c.toNat ≤ '9'.toNat := by
        simp only [isDigit, Bool.and_eq_true, decide_eq_true_eq] at digit
        exact digit.2
      simp [digit?, digitValue?, digit, Option.filter]
      omega
  | false =>
      simp only [digit?, digitValue?, digit, Bool.false_eq_true, ↓reduceIte]
      split
      · simp [Option.filter]
      · split <;> simp [Option.filter]

theorem takes_scanDigits_cons (base : Nat) (c : Char) (text : List Char)
    (digit : (digit? base c).isSome = true) :
    Takes (fun ending => scanDigits ending base)
      (fun outcome word _ => word ≠ [] ∧ ∀ value, outcome = .ok value → value.2 = word)
      (c :: text) :=
  (takes_scanDigits base (c :: text)).imp fun _ _ _ split holds =>
    ⟨holds.2 (split ▸ ⟨c, rfl, digit⟩), holds.1⟩

theorem takes_scanPower (marker : Char) (sign text : List Char) :
    Takes (fun ending => scanPower ending marker sign)
      (fun outcome word _ => (∀ value, outcome = .ok value → value.2 = marker :: (sign ++ word)) ∧
        (outcome.isOk = true → word ≠ [])) text := by
  cases text with
  | nil =>
      refine ⟨[], [], .error .malformedFloat, rfl, .looking fun ending next fits => ?_, by simp,
        by simp [Except.isOk, Except.toBool]⟩
      obtain rfl := eq_nil_of_fits_error _ next fits
      rfl
  | cons d text =>
      by_cases digit : isDigit d = true
      · have same (ending : Ending) (next : List Char) : scanPower ending marker sign (d :: next) =
            andThen (scanDigits ending 10 (d :: next)) fun value rest =>
              (.ok (some (if sign = ['-'] then -(value.1 : Int) else value.1),
                marker :: (sign ++ value.2)), rest) :=
          if_pos digit
        refine Takes.of_first d same (Takes.map _
          (takes_scanDigits_cons 10 d text ((isSome_digit?_ten d).trans digit)) ?_ ?_)
        · rintro e word rest - ⟨nonempty, -⟩
          exact ⟨nonempty, by simp, fun _ => nonempty⟩
        · rintro ⟨n, digits⟩ word rest - ⟨nonempty, spelled⟩
          obtain rfl : digits = word := spelled _ rfl
          exact ⟨nonempty, by simp, fun _ => nonempty⟩
      · exact ⟨[d], text, .error .malformedFloat, rfl,
          .within (by simp) fun ending next => if_neg digit, by simp, by simp⟩

theorem splitSign_append (text sign unsigned next : List Char)
    (signed : splitSign text = (sign, unsigned)) (same : next.head? = unsigned.head?) :
    text = sign ++ unsigned ∧ splitSign (sign ++ next) = (sign, next) := by
  fun_cases splitSign text with
  | case1 text =>
      obtain ⟨rfl, rfl⟩ : ['-'] = sign ∧ text = unsigned := by simpa [splitSign] using signed
      exact ⟨rfl, rfl⟩
  | case2 text =>
      obtain ⟨rfl, rfl⟩ : ['+'] = sign ∧ text = unsigned := by simpa [splitSign] using signed
      exact ⟨rfl, rfl⟩
  | case3 text no_minus no_plus =>
      rw [splitSign] at signed
      · obtain ⟨rfl, rfl⟩ := Prod.mk.inj signed
        refine ⟨rfl, ?_⟩
        rw [List.nil_append, splitSign]
        · rintro rest rfl
          exact no_minus _ (List.head?_eq_some_iff.mp same.symm).choose_spec
        · rintro rest rfl
          exact no_plus _ (List.head?_eq_some_iff.mp same.symm).choose_spec
      · exact no_minus
      · exact no_plus

theorem scanExponent_of_no_marker (ending : Ending) (text : List Char)
    (no_marker : ∀ c ∈ text.head?, ¬ (c = 'e' ∨ c = 'E')) :
    scanExponent ending text = (ending.lookAt text (.ok (none, [])), text) := by
  cases text with
  | nil => rfl
  | cons c text => simp [scanExponent, no_marker c rfl]

theorem takes_scanExponent (text : List Char) :
    Takes scanExponent (fun outcome word _ => ∀ value, outcome = .ok value → value.2 = word)
      text := by
  by_cases no_marker : ∀ c ∈ text.head?, ¬ (c = 'e' ∨ c = 'E')
  · refine ⟨[], text, .ok (none, []), rfl, .looking fun ending next fits => ?_, by simp⟩
    refine scanExponent_of_no_marker ending next ?_
    rcases fits with same | ⟨-, separate⟩
    · rwa [same]
    · exact fun b head => (separate b head).noMarker
  · obtain ⟨marker, text, rfl, is_marker⟩ :
        ∃ marker rest, text = marker :: rest ∧ (marker = 'e' ∨ marker = 'E') := by
      cases text with
      | nil => simp at no_marker
      | cons c text =>
          exact ⟨c, text, rfl, by simpa [Decidable.or_iff_not_imp_left] using no_marker⟩
    rcases signed : splitSign text with ⟨sign, unsigned⟩
    obtain ⟨word, rest, outcome, rfl, reads, spelled, nonempty⟩ :=
      takes_scanPower marker sign unsigned
    obtain ⟨rfl, -⟩ := splitSign_append text sign _ _ signed rfl
    have same (ending : Ending) (next : List Char) (head : next.head? = (word ++ rest).head?) :
        scanExponent ending (marker :: (sign ++ next)) = scanPower ending marker sign next := by
      rw [scanExponent, if_pos is_marker, (splitSign_append _ sign _ next signed head).2]
    refine ⟨marker :: (sign ++ word), rest, outcome, by simp, ?_, spelled⟩
    cases reads with
    | within some inner_same =>
        refine .within (by simp) fun ending next => ?_
        rw [List.cons_append, List.append_assoc, same ending, inner_same]
        obtain ⟨c, word, rfl⟩ := List.exists_cons_of_ne_nil some
        rfl
    | looking inner_same =>
        refine .looking fun ending next fits => ?_
        rw [List.cons_append, List.append_assoc, same ending, inner_same ending next fits]
        cases word with
        | cons c word => rfl
        | nil =>
            rcases fits with head | ⟨found, -⟩
            · exact head
            · exact absurd rfl (nonempty found)

theorem takes_scanFraction (whole : Nat) (front text : List Char) :
    Takes (fun ending => scanFraction ending whole front)
      (fun outcome word rest => Finds front outcome word rest ∧
        ((∃ c ∈ (word ++ rest).head?, isDigit c = true) → word ≠ [])) text := by
  refine (takes_scanWhile isDigit (fun b apart => apart.isDigit) text).andThen (by simp) ?_
  rintro digits word rest - ⟨found, -, stop⟩
  obtain rfl : digits = word := Except.ok.inj found
  have nonempty (more left : List Char) (split : rest = more ++ left) :
      (∃ c ∈ (digits ++ more ++ left).head?, isDigit c = true) → digits ++ more ≠ [] := by
    rintro ⟨c, first, digit⟩ empty
    obtain ⟨rfl, rfl⟩ := List.append_eq_nil_iff.mp empty
    simp [stop c (by rwa [split])] at digit
  refine Takes.map _ (takes_scanExponent rest) ?_ ?_
  · exact fun e more left split _ => ⟨by simp [Finds], nonempty more left split⟩
  · rintro ⟨exponent, spelling⟩ more left split spelled
    obtain rfl : spelling = more := spelled _ rfl
    refine ⟨?_, nonempty spelling left split⟩
    rintro t ⟨⟩
    have token := spelledBy_floatToken whole digits exponent
      (String.ofList (front ++ digits ++ spelling)) left
    rw [String.toList_ofList] at token
    rwa [← List.append_assoc]

theorem takes_scanRadix (base : Nat) (front text : List Char) :
    Takes (fun ending => scanRadix ending base front)
      (fun outcome word rest => Finds front outcome word rest ∧
        ((∃ c ∈ (word ++ rest).head?, (digit? base c).isSome = true) → word ≠ [])) text := by
  refine Takes.map _ (takes_scanDigits base text) (by simp +contextual [Finds]) ?_
  rintro ⟨n, digits⟩ word rest - ⟨spelled, nonempty⟩
  obtain rfl : digits = word := spelled _ rfl
  refine ⟨?_, nonempty⟩
  rintro t ⟨⟩
  exact ⟨by simp [Token.SpelledBy], trivial⟩

theorem takes_scanInteger (n : Nat) (digits text : List Char) :
    Takes (fun ending => scanInteger ending n digits) (Finds digits) text := by
  refine Takes.map _ (takes_scanExponent text) (by simp [Finds]) ?_
  rintro ⟨exponent, spelling⟩ word rest - spelled t found
  obtain rfl : spelling = word := spelled _ rfl
  simpa using spelledBy_of_integerToken n exponent _ t found rest

theorem scanTail_of_no_point (ending : Ending) (n : Nat) (digits text : List Char)
    (no_point : ∀ c ∈ text.head?, c ≠ '.') :
    scanTail ending n digits text = scanInteger ending n digits text := by
  rw [scanTail]
  rintro text rfl
  exact no_point '.' rfl rfl

theorem scanTail_of_plain (ending : Ending) (n : Nat) (digits text : List Char)
    (plain : ∀ c ∈ text.head?, c ≠ '.' ∧ ¬ (c = 'e' ∨ c = 'E')) :
    scanTail ending n digits text =
      (ending.lookAt text (.ok (.int (Int32.ofNat n) (String.ofList digits))), text) := by
  rw [scanTail_of_no_point _ _ _ _ fun c head => (plain c head).1, scanInteger,
    scanExponent_of_no_marker _ _ fun c head => (plain c head).2]
  refine (andThen_lookAt ending text (.ok (none, []))
    fun found => integerToken n found.1 (String.ofList (digits ++ found.2))).trans ?_
  simp [Except.bind, integerToken]

theorem takes_scanTail (n : Nat) (digits text : List Char) :
    Takes (fun ending => scanTail ending n digits) (Finds digits) text := by
  by_cases no_point : ∀ c ∈ text.head?, c ≠ '.'
  · exact (takes_scanInteger n digits text).of_head (· ≠ '.')
      (fun b separates => separates.ne '.' (by decide))
      (fun ending next => scanTail_of_no_point ending n digits next) no_point
  · obtain ⟨text, rfl⟩ : ∃ rest, text = '.' :: rest := by
      cases text with
      | nil => simp at no_point
      | cons c text => exact ⟨text, by simpa using no_point⟩
    refine Takes.cons '.' (fun ending next => rfl)
      ((takes_scanFraction n (digits ++ ['.']) text).imp ?_)
    intro outcome word rest split holds t found
    simpa using holds.1 t found

theorem takes_scanDecimal (c : Char) (text : List Char) (digit : isDigit c = true) :
    Takes scanDecimal (fun outcome word rest => word ≠ [] ∧ Finds [] outcome word rest)
      (c :: text) := by
  refine (takes_scanDigits_cons 10 c text ((isSome_digit?_ten c).trans digit)).andThen
    (by simp +contextual [Finds]) ?_
  rintro ⟨n, digits⟩ word rest - ⟨nonempty, spelled⟩
  obtain rfl : digits = word := spelled _ rfl
  refine (takes_scanTail n digits rest).imp fun outcome more left _ holds => ?_
  exact ⟨by simp [nonempty], by simpa [Finds] using holds⟩

theorem scanNumber_eq_scanDecimal (ending : Ending) (text : List Char)
    (plain : ∀ d others, text = '0' :: d :: others → d ≠ 'x' ∧ isDigit d = false) :
    scanNumber ending text = scanDecimal ending text := by
  fun_cases scanNumber ending text with
  | case1 others => exact absurd rfl (plain 'x' others rfl).1
  | case2 d others not_x digit => simp [(plain d others rfl).2] at digit
  | case3 d others not_x no_digit => rfl
  | case4 => rfl

theorem scanNumber_zero (ending : Ending) (text : List Char)
    (plain : ∀ d ∈ text.head?, d ≠ 'x' ∧ isDigit d = false) :
    scanNumber ending ('0' :: text) = scanTail ending 0 ['0'] text := by
  have zero : scanDigits ending 10 ('0' :: text) = (ending.lookAt text (.ok (0, ['0'])), text) := by
    have digit : (digit? 10 '0').isSome = true := rfl
    obtain ⟨taken, left⟩ := span_append (fun c => (digit? 10 c).isSome) ['0'] text
      (by simpa using digit) fun d head => (isSome_digit?_ten d).trans (plain d head).2
    rw [List.singleton_append] at taken left
    simp only [scanDigits, taken, left]
    rfl
  rw [scanNumber_eq_scanDecimal, scanDecimal, zero]
  · cases text with
    | nil => cases ending <;> rfl
    | cons d text => simp [andThen]
  · rintro d others ⟨⟩
    exact plain d rfl

theorem takes_scanNumber (c : Char) (text : List Char) (digit : isDigit c = true) :
    Takes scanNumber (fun outcome word rest => word ≠ [] ∧ Finds [] outcome word rest)
      (c :: text) := by
  by_cases nonzero : c ≠ '0'
  · refine Takes.of_first c (fun ending next => scanNumber_eq_scanDecimal ending _ ?_)
      ((takes_scanDecimal c text digit).imp fun _ _ _ _ holds => ⟨holds.1, holds⟩)
    rintro d others ⟨⟩
    exact absurd rfl nonzero
  · obtain rfl : c = '0' := by simpa using nonzero
    by_cases plain : ∀ d ∈ text.head?, d ≠ 'x' ∧ isDigit d = false
    · have tail := (takes_scanTail 0 ['0'] text).of_head (fun d => d ≠ 'x' ∧ isDigit d = false)
        (fun b separates => ⟨separates.ne 'x' (by decide +kernel), separates.isDigit⟩)
        (fun ending next => scanNumber_zero ending next) plain
      exact Takes.cons '0' (fun _ _ => rfl) (tail.imp fun _ _ _ _ holds => ⟨by simp, holds⟩)
    · obtain ⟨d, text, rfl, marked⟩ :
          ∃ d others, text = d :: others ∧ (d = 'x' ∨ d ≠ 'x' ∧ isDigit d = true) := by
        cases text with
        | nil => simp at plain
        | cons d text =>
            refine ⟨d, text, rfl, ?_⟩
            by_cases hex : d = 'x'
            · exact .inl hex
            · exact .inr ⟨hex, by simpa [hex] using plain⟩
      rcases marked with rfl | ⟨not_x, digit⟩
      · refine Takes.cons '0' (fun _ _ => rfl) (Takes.cons 'x' (fun _ _ => rfl)
          ((takes_scanRadix 16 ['0', 'x'] text).imp fun _ _ _ _ holds => ⟨by simp, holds.1⟩))
      · have octal (ending : Ending) (next : List Char) :
            scanNumber ending ('0' :: d :: next) = scanRadix ending 8 ['0'] (d :: next) := by
          simp [scanNumber, digit]
        by_cases low : (digit? 8 d).isSome = true
        · refine Takes.cons '0' (fun _ _ => rfl) (Takes.of_first d octal
            ((takes_scanRadix 8 ['0'] (d :: text)).imp fun _ _ _ split holds => ?_))
          exact ⟨holds.2 (split ▸ ⟨d, rfl, low⟩), by simp, holds.1⟩
        · -- a zero before a digit that is no octal one is a number by itself
          refine ⟨['0'], d :: text, .ok (.int 0 "0"), rfl, .looking fun ending next fits => ?_,
            by simp, ?_⟩
          · rcases fits with same | ⟨-, separate⟩
            · obtain ⟨more, rfl⟩ := List.head?_eq_some_iff.mp same
              have none : digit? 8 d = none := by simpa using low
              rw [List.singleton_append, octal]
              simp [scanRadix, scanDigits, none, bounded, andThen]
            · rw [List.singleton_append, scanNumber_zero, scanTail_of_plain]
              · rfl
              · exact fun b head =>
                  ⟨(separate b head).ne '.' (by decide), (separate b head).noMarker⟩
              · exact fun b head =>
                  ⟨(separate b head).ne 'x' (by decide +kernel), (separate b head).isDigit⟩
          · rintro t ⟨⟩
            exact ⟨rfl, trivial⟩

end Numbers

section Words

theorem takes_scanName (c : Char) (text : List Char) (start : isNameStart c = true) :
    Takes scanName (fun outcome word rest => word ≠ [] ∧ Finds [] outcome word rest)
      (c :: text) := by
  refine Takes.map _ (takes_scanWhile isNameChar (fun b apart => apart.notName) (c :: text))
    (by simp) ?_
  rintro name word rest split ⟨found, all, stop⟩
  obtain rfl : name = word := Except.ok.inj found
  cases name with
  | nil =>
      have other := stop c (by rw [← List.nil_append rest, ← split]; rfl)
      simp [isNameChar, start] at other
  | cons d name =>
      obtain ⟨rfl, -⟩ := List.cons.inj split
      refine ⟨by simp, ?_⟩
      rintro t ⟨⟩
      refine ⟨spelledBy_ofIdentifier _ ?_, endsBefore_ofIdentifier _ rest stop⟩
      have others : ∀ d ∈ name, isNameChar d = true := fun d member => all d (.tail c member)
      simpa [isName, start] using others

theorem takes_scanString (text : List Char) :
    Takes scanString (fun outcome word rest => Finds ['"'] outcome word rest) text := by
  cases read : stringContent? text with
  | none =>
      refine ⟨text, [], .error .unterminatedString, by simp, .looking fun ending next fits => ?_,
        by simp [Finds]⟩
      obtain rfl := eq_nil_of_fits_error _ next fits
      simp only [scanString, List.append_nil, read]
  | some found =>
      obtain ⟨content, rest⟩ := found
      obtain ⟨body, rfl, decoded⟩ := decoded?_of_stringContent? text content rest read
      refine ⟨body ++ ['"'], rest, .ok (.string (String.ofList content)), by simp,
        .within (by simp) fun ending next => ?_, ?_⟩
      · rw [List.append_assoc, List.singleton_append]
        simp only [scanString, stringContent?_of_decoded? body content next decoded]
      · rintro t ⟨⟩
        exact ⟨⟨body, rfl, by simpa using decoded⟩, trivial⟩

theorem takes_scanChar (text : List Char) :
    Takes scanChar (fun outcome word rest => Finds ['\''] outcome word rest) text := by
  rcases text with - | ⟨c, - | ⟨quote, text⟩⟩
  · refine ⟨[], [], .error .unterminatedChar, rfl, .looking fun ending next fits => ?_,
      by simp [Finds]⟩
    obtain rfl := eq_nil_of_fits_error _ next fits
    rfl
  · refine ⟨[c], [], .error .unterminatedChar, rfl, .looking fun ending next fits => ?_,
      by simp [Finds]⟩
    obtain rfl := eq_nil_of_fits_error _ next fits
    rfl
  · refine ⟨[c, quote], text, _, rfl, .within (by simp) fun ending next => rfl, ?_⟩
    intro t found
    split at found
    · rename_i closed
      obtain rfl := Except.ok.inj found
      exact ⟨by simp [Token.SpelledBy, closed], trivial⟩
    · simp at found

theorem scanSymbol_of_not_looksAhead (ending : Ending) (s : Symbol) (text : List Char)
    (alone : s.looksAhead = false) : scanSymbol ending s text = (.ok (.symbol s), text) := by
  have no_longer (c : Char) : s.extend? c = none := by
    cases s <;> simp_all [Symbol.looksAhead, Symbol.extend?]
  have not_dot : s ≠ .dot := by
    rintro rfl
    simp [Symbol.looksAhead] at alone
  cases text with
  | nil => simp [scanSymbol, alone]
  | cons c text => simp [scanSymbol, no_longer, not_dot]

theorem scanSymbol_of_endsBefore (ending : Ending) (s : Symbol) (text : List Char)
    (looks : s.looksAhead = true) (ends : (Token.symbol s).EndsBefore text) :
    scanSymbol ending s text = (ending.lookAt text (.ok (.symbol s)), text) := by
  cases text with
  | nil => simp [scanSymbol, looks]
  | cons c text =>
      obtain ⟨no_longer, no_fraction⟩ := ends c rfl
      have other : ¬ (s = .dot ∧ isDigit c = true) := fun both => by
        simp [no_fraction both.1] at both
      simp [scanSymbol, no_longer, other]

theorem takes_symbol (scanner : Ending → List Char → Result Token) (c : Char) (s : Symbol)
    (found : Symbol.ofChar? c = some s)
    (same : ∀ ending next, scanner ending (c :: next) = scanSymbol ending s next)
    (text : List Char) :
    Takes scanner (fun outcome word rest => word ≠ [] ∧ Finds [] outcome word rest)
      (c :: text) := by
  have single := spelling_of_ofChar? c s found
  cases looks : s.looksAhead with
  | false =>
      refine ⟨[c], text, .ok (.symbol s), rfl, .within (by simp) fun ending next => ?_, by simp, ?_⟩
      · rw [List.singleton_append, same, scanSymbol_of_not_looksAhead ending s next looks]
      · rintro t ⟨⟩
        refine ⟨single.symm, fun d _ => ?_⟩
        cases s <;> simp_all [Symbol.looksAhead, Symbol.extend?]
  | true =>
      by_cases ends : (Token.symbol s).EndsBefore text
      · refine ⟨[c], text, .ok (.symbol s), rfl, .looking fun ending next fits => ?_, by simp, ?_⟩
        · rw [List.singleton_append, same, scanSymbol_of_endsBefore ending s next looks]
          rcases fits with begins | ⟨-, separate⟩
          · simpa only [Token.EndsBefore, begins] using ends
          · exact fun d head => ⟨(separate d head).notLonger s, fun _ => (separate d head).isDigit⟩
        · rintro t ⟨⟩
          exact ⟨single.symm, ends⟩
      · obtain ⟨d, text, rfl⟩ : ∃ d rest, text = d :: rest := by
          cases text with
          | nil => exact absurd (by simp [Token.EndsBefore]) ends
          | cons d text => exact ⟨d, text, rfl⟩
        cases extended : s.extend? d with
        | some longer =>
            refine ⟨[c, d], text, .ok (.symbol longer), rfl,
              .within (by simp) fun ending next => ?_, by simp, ?_⟩
            · rw [List.cons_append, List.singleton_append, same]
              simp only [scanSymbol, extended]
            · rintro t ⟨⟩
              refine ⟨?_, endsBefore_of_extend? s longer d extended text⟩
              rw [Token.SpelledBy, spelling_of_extend? s longer d extended, single]
              rfl
        | none =>
            obtain ⟨rfl, digit⟩ : s = .dot ∧ isDigit d = true := by
              simpa [Token.EndsBefore, extended] using ends
            obtain rfl : '.' = c := by simpa [Symbol.spelling] using single
            refine Takes.cons '.' same (Takes.of_first d (fun ending next => ?_)
              ((takes_scanFraction 0 ['.'] (d :: text)).imp fun _ _ _ split holds =>
                ⟨holds.2 (split ▸ ⟨d, rfl, digit⟩), by simp, holds.1⟩))
            simp only [scanSymbol, extended, digit, and_self, ↓reduceIte]

theorem takes_scanToken (c : Char) (text : List Char) :
    Takes scanToken (fun outcome word rest => word ≠ [] ∧ Finds [] outcome word rest)
      (c :: text) := by
  cases symbol : Symbol.ofChar? c with
  | some s =>
      refine takes_symbol scanToken c s symbol (fun ending next => ?_) text
      simp only [scanToken, scanFrom, symbol]
  | none =>
      by_cases is_char : c = '\''
      · subst is_char
        exact Takes.cons '\'' (fun _ _ => rfl)
          ((takes_scanChar text).imp fun _ _ _ _ holds => ⟨by simp, holds⟩)
      by_cases is_quote : c = '"'
      · subst is_quote
        exact Takes.cons '"' (fun _ _ => rfl)
          ((takes_scanString text).imp fun _ _ _ _ holds => ⟨by simp, holds⟩)
      by_cases digit : isDigit c = true
      · refine Takes.of_first c (fun ending next => ?_)
          ((takes_scanNumber c text digit).imp fun _ _ _ _ holds => ⟨holds.1, holds⟩)
        simp only [scanToken, scanFrom, symbol, is_char, is_quote, digit, ↓reduceIte]
      by_cases start : isNameStart c = true
      · refine Takes.of_first c (fun ending next => ?_)
          ((takes_scanName c text start).imp fun _ _ _ _ holds => ⟨holds.1, holds⟩)
        simp only [scanToken, scanFrom, symbol, is_char, is_quote, digit, start, Bool.false_eq_true,
          ↓reduceIte]
      · refine ⟨[c], text, .error (.unexpectedChar c), rfl,
          .within (by simp) fun ending next => ?_, by simp, by simp [Finds]⟩
        simp only [List.singleton_append, scanToken, scanFrom, symbol, is_char, is_quote, digit,
          start, Bool.false_eq_true, ↓reduceIte]

theorem scan_rest_length_lt (ending : Ending) (text : List Char) (nonempty : text ≠ []) :
    (scan ending text).2.length < text.length := by
  have positive := List.length_pos_iff.mpr nonempty
  unfold scan
  split
  · exact positive
  · rename_i rest skipped
    have shorter := Trivia.skip_length_le text rest skipped
    cases rest with
    | nil => exact positive
    | cons c rest =>
        obtain ⟨word, left, outcome, split, reads, taken, -⟩ := takes_scanToken c rest
        have leaves : (scanToken ending (word ++ left)).2 = left := by
          rcases reads.eq ending with scanned | scanned <;> rw [scanned]
        have word_length := List.length_pos_iff.mpr taken
        rw [split, leaves]
        rw [split, List.length_append] at shorter
        omega

end Words

end Abacus.Scan
