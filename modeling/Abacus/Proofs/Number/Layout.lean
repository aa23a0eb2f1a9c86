import Abacus.Number.Layout
import Abacus.Proofs.Number.Shortest
import Abacus.Proofs.Token.Spelling

/-!
Texts of numbers. Main statements: no two integers have one text, and no two doubles have one text,
in any layout.
-/
namespace Abacus.Number
open Text

section Integers

theorem toDigits_injective : Function.Injective (Nat.toDigits 10) := by
  intro m n same
  have value := positional_toDigits 10 (by decide) (by decide)
  rw [← value m, same, value]

theorem isDigit_or_minus_of_mem_integerText (n : Int) (c : Char) (member : c ∈ integerText n) :
    isDigit c = true ∨ c = '-' := by
  cases n with
  | ofNat k => exact .inl (isDigit_of_mem_toDigits k c member)
  | negSucc k =>
      rcases List.mem_cons.mp member with minus | digit
      · exact .inr minus
      · exact .inl (isDigit_of_mem_toDigits (k + 1) c digit)

theorem integerText_ne_nil (n : Int) : integerText n ≠ [] := by
  cases n with
  | ofNat k => exact Nat.toDigits_ne_nil
  | negSucc k => exact List.cons_ne_nil _ _

theorem integerText_injective : Function.Injective integerText := by
  have no_minus (k l : Nat) : Nat.toDigits 10 k ≠ '-' :: Nat.toDigits 10 l := by
    intro same
    have digit := isDigit_of_mem_toDigits k '-' (same ▸ List.mem_cons_self)
    exact absurd digit (by decide)
  intro m n same
  cases m with
  | ofNat k =>
      cases n with
      | ofNat l => rw [toDigits_injective same]
      | negSucc l => exact absurd same (no_minus k (l + 1))
  | negSucc k =>
      cases n with
      | ofNat l => exact absurd same.symm (no_minus l (k + 1))
      | negSucc l => rw [Nat.succ.inj (toDigits_injective (List.cons.inj same).2)]

end Integers

namespace Layout

structure IsSignificand (digits : List Char) : Prop where
  nonempty : digits ≠ []
  digit : ∀ c ∈ digits, isDigit c = true
  first : digits.head? ≠ some '0'
  last : digits.getLast? ≠ some '0'

section Zeros

theorem exists_eq_stripZeros_append (digits : List Char) :
    ∃ count, digits = stripZeros digits ++ zeros count := by
  have split := digits.reverse.takeWhile_append_dropWhile (p := (· = '0'))
  have run : ∀ c ∈ digits.reverse.takeWhile (· = '0'), c = '0' := fun c member => by
    simpa using List.mem_takeWhile_imp member
  obtain ⟨count, run⟩ : ∃ count, digits.reverse.takeWhile (· = '0') = zeros count :=
    ⟨_, List.eq_replicate_iff.mpr ⟨rfl, run⟩⟩
  refine ⟨count, ?_⟩
  calc digits
    _ = (digits.reverse.takeWhile (· = '0') ++ digits.reverse.dropWhile (· = '0')).reverse := by
        rw [split, List.reverse_reverse]
    _ = stripZeros digits ++ zeros count := by
        rw [List.reverse_append, run, zeros, List.reverse_replicate, stripZeros]

theorem getLast?_stripZeros (digits : List Char) : (stripZeros digits).getLast? ≠ some '0' := by
  intro zero
  have dropped := digits.reverse.head?_dropWhile_not (· = '0')
  rw [stripZeros, List.getLast?_reverse] at zero
  simp [zero] at dropped

theorem stripZeros_append_zeros (digits : List Char) (count : Nat)
    (last : digits.getLast? ≠ some '0') : stripZeros (digits ++ zeros count) = digits := by
  have kept : digits.reverse.dropWhile (· = '0') = digits.reverse := by
    rw [← List.head?_reverse] at last
    cases reversed : digits.reverse with
    | nil => rfl
    | cons c rest =>
        rw [reversed] at last
        simpa using last
  rw [stripZeros, List.reverse_append, zeros, List.reverse_replicate,
    List.dropWhile_append_of_pos (by simp), kept, List.reverse_reverse]

theorem zeros_append_inj (digits digits' : List Char) (count count' : Nat)
    (first : digits.head? ≠ some '0') (first' : digits'.head? ≠ some '0')
    (same : zeros count ++ digits = zeros count' ++ digits') :
    digits = digits' ∧ count = count' := by
  have dropped (digits : List Char) (count : Nat) (first : digits.head? ≠ some '0') :
      (zeros count ++ digits).dropWhile (· = '0') = digits := by
    rw [zeros, List.dropWhile_append_of_pos (by simp)]
    cases digits with
    | nil => rfl
    | cons c rest => simpa using first
  have digits_eq : digits = digits' := by
    rw [← dropped digits count first, same, dropped digits' count' first']
  subst digits_eq
  simpa [zeros] using congrArg List.length same

theorem isSignificand_stripZeros (n : Nat) (positive : 0 < n) :
    IsSignificand (stripZeros (Nat.toDigits 10 n)) := by
  have front := head?_toDigits 10 (by decide) n positive
  obtain ⟨count, split⟩ := exists_eq_stripZeros_append (Nat.toDigits 10 n)
  have nonempty : stripZeros (Nat.toDigits 10 n) ≠ [] := by
    intro none
    rw [none, List.nil_append] at split
    cases count with
    | zero => exact Nat.toDigits_ne_nil split
    | succ count => exact front (by rw [split]; rfl)
  refine ⟨nonempty, fun c member => ?_, ?_, getLast?_stripZeros _⟩
  · exact isDigit_of_mem_toDigits n c (split ▸ List.mem_append_left _ member)
  · obtain ⟨d, rest, stripped⟩ := List.exists_cons_of_ne_nil nonempty
    rw [split, stripped] at front
    rw [stripped]
    exact front

end Zeros

section Plain
variable {digits digits' : List Char} {point point' : Int}

theorem IsSignificand.not_mem (significand : IsSignificand digits) (c : Char)
    (other : isDigit c = false) : c ∉ digits := fun member =>
  absurd (significand.digit c member) (by simp [other])

theorem not_mem_zeros (count : Nat) (c : Char) (other : c ≠ '0') : c ∉ zeros count := by
  simp [zeros, other]

theorem head?_plain (significand : IsSignificand digits) :
    (plain digits point).head? = some '0' ↔ point ≤ 0 := by
  obtain ⟨d, rest, rfl⟩ := List.exists_cons_of_ne_nil significand.nonempty
  have first : d ≠ '0' := by simpa using significand.first
  unfold plain
  split
  · simp [*]
  · rename_i positive
    split
    · simp [first, positive]
    · obtain ⟨k, at_k⟩ : ∃ k, point.toNat = k + 1 := ⟨point.toNat - 1, by omega⟩
      simp [at_k, first, positive]

theorem mem_plain_point (significand : IsSignificand digits) :
    '.' ∈ plain digits point ↔ point < digits.length := by
  have digit : '.' ∉ digits := significand.not_mem '.' rfl
  have zero (count : Nat) : '.' ∉ zeros count := not_mem_zeros count '.' (by decide)
  have positive : 0 < digits.length := List.length_pos_iff.mpr significand.nonempty
  unfold plain
  split
  · exact iff_of_true (by simp) (by omega)
  · split
    · exact iff_of_false (by simp [digit, zero]) (by omega)
    · exact iff_of_true (by simp) (by omega)

theorem plain_inj (significand : IsSignificand digits) (significand' : IsSignificand digits')
    (same : plain digits point = plain digits' point') : digits = digits' ∧ point = point' := by
  -- where the point stands can be seen from the first digit and from whether there is one
  have fraction : point ≤ 0 ↔ point' ≤ 0 := by
    rw [← head?_plain significand, same, head?_plain significand']
  have whole : point < digits.length ↔ point' < digits'.length := by
    rw [← mem_plain_point significand, same, mem_plain_point significand']
  unfold plain at same
  by_cases at_front : point ≤ 0
  · rw [if_pos at_front, if_pos (fraction.mp at_front)] at same
    obtain ⟨digits_eq, count⟩ := zeros_append_inj digits digits' _ _ significand.first
      significand'.first (by simpa using same)
    exact ⟨digits_eq, by omega⟩
  rw [if_neg at_front, if_neg (mt fraction.mpr at_front)] at same
  by_cases at_end : (digits.length : Int) ≤ point
  · rw [if_pos at_end, if_pos (by omega)] at same
    have digits_eq : digits = digits' := by
      rw [← stripZeros_append_zeros digits _ significand.last, same,
        stripZeros_append_zeros digits' _ significand'.last]
    subst digits_eq
    have count : point.toNat - digits.length = point'.toNat - digits.length := by
      simpa [zeros] using congrArg List.length same
    exact ⟨rfl, by omega⟩
  · rw [if_neg at_end, if_neg (by omega)] at same
    have none : '.' ∉ digits := significand.not_mem '.' rfl
    obtain ⟨front, -, back⟩ := (List.append_cons_inj_of_notMem
      (fun member => none (List.mem_of_mem_take member))
      (fun member => none (List.mem_of_mem_drop member))).mp same
    have place := congrArg List.length front
    simp only [List.length_take] at place
    refine ⟨?_, by omega⟩
    rw [← List.take_append_drop point.toNat digits, front, back, List.take_append_drop]

theorem not_mem_plain_marker (significand : IsSignificand digits) : 'e' ∉ plain digits point := by
  have digit : 'e' ∉ digits := significand.not_mem 'e' rfl
  have front : 'e' ∉ digits.take point.toNat := fun member => digit (List.mem_of_mem_take member)
  have back : 'e' ∉ digits.drop point.toNat := fun member => digit (List.mem_of_mem_drop member)
  have zero (count : Nat) : 'e' ∉ zeros count := not_mem_zeros count 'e' (by decide)
  unfold plain
  split
  · simp [digit, zero]
  · split
    · simp [digit, zero]
    · simp [front, back]

theorem exists_digit_of_plain (significand : IsSignificand digits) :
    ∃ d rest, plain digits point = d :: rest ∧ isDigit d = true := by
  obtain ⟨d, rest, rfl⟩ := List.exists_cons_of_ne_nil significand.nonempty
  have digit := significand.digit d List.mem_cons_self
  unfold plain
  split
  · exact ⟨'0', _, rfl, rfl⟩
  · split
    · exact ⟨d, _, rfl, digit⟩
    · obtain ⟨k, at_k⟩ : ∃ k, point.toNat = k + 1 := ⟨point.toNat - 1, by omega⟩
      exact ⟨d, _, by rw [at_k, List.take_succ_cons, List.cons_append], digit⟩

theorem plain_ne_zero (significand : IsSignificand digits) : plain digits point ≠ ['0'] := by
  intro zero
  have front : point ≤ 0 := (head?_plain significand).mp (by rw [zero]; rfl)
  have positive : 0 < digits.length := List.length_pos_iff.mpr significand.nonempty
  have pointed : '.' ∈ plain digits point := (mem_plain_point significand).mpr (by omega)
  rw [zero] at pointed
  exact absurd pointed (by decide)

end Plain

section Exponential
variable {digits digits' : List Char} {x x' : Int}

theorem ofDigitChars_padded (width n : Nat) : Nat.ofDigitChars 10 (padded width n) 0 = n := by
  rw [padded, zeros, Nat.ofDigitChars_append, Nat.ofDigitChars_replicate_zero, Nat.mul_zero,
    Nat.ofDigitChars_ten_toDigits]

theorem not_mem_padded_marker (width n : Nat) : 'e' ∉ padded width n := by
  have digit : 'e' ∉ Nat.toDigits 10 n := fun member =>
    absurd (isDigit_of_mem_toDigits n 'e' member) (by decide)
  simp [padded, digit, not_mem_zeros _ 'e' (by decide)]

theorem mantissa_inj (same : mantissa digits = mantissa digits') : digits = digits' := by
  rcases digits with - | ⟨d, - | ⟨e, ds⟩⟩ <;> rcases digits' with - | ⟨d', - | ⟨e', ds'⟩⟩ <;>
    simp_all [mantissa]

theorem not_mem_mantissa_marker (significand : IsSignificand digits) : 'e' ∉ mantissa digits := by
  have digit : 'e' ∉ digits := significand.not_mem 'e' rfl
  rcases digits with - | ⟨d, - | ⟨e, ds⟩⟩ <;> simp_all [mantissa]

theorem not_mem_exponent_marker (layout : Layout) (x : Int) : 'e' ∉ layout.exponent x := by
  unfold exponent
  split <;> simp [not_mem_padded_marker]

theorem exponent_inj (layout : Layout) (same : layout.exponent x = layout.exponent x') :
    x = x' := by
  have number {width width' n n' : Nat} (same : padded width n = padded width' n') : n = n' := by
    rw [← ofDigitChars_padded width n, same, ofDigitChars_padded]
  unfold exponent at same
  split at same <;> split at same
  · have := number (List.cons.inj same).2
    omega
  · simp at same
  · simp at same
  · have := number (List.cons.inj same).2
    omega

theorem exponential_inj (layout : Layout) (significand : IsSignificand digits)
    (same : layout.exponential digits x = layout.exponential digits' x') :
    digits = digits' ∧ x = x' := by
  rw [exponential, exponential, List.append_cons_inj_of_notMem
    (not_mem_mantissa_marker significand) (not_mem_exponent_marker layout x)] at same
  exact ⟨mantissa_inj same.1, exponent_inj layout same.2.2⟩

theorem mem_exponential_marker (layout : Layout) : 'e' ∈ layout.exponential digits x := by
  simp [exponential]

theorem exists_digit_of_exponential (layout : Layout) (significand : IsSignificand digits) :
    ∃ d rest, layout.exponential digits x = d :: rest ∧ isDigit d = true := by
  obtain ⟨d, rest, rfl⟩ := List.exists_cons_of_ne_nil significand.nonempty
  have digit := significand.digit d List.mem_cons_self
  unfold exponential
  cases rest with
  | nil => exact ⟨d, _, rfl, digit⟩
  | cons e rest => exact ⟨d, _, rfl, digit⟩

end Exponential

section Decimals
variable (layout : Layout) {d d' : Decimal}

theorem value_eq (d : Decimal) :
    d.value =
      Nat.ofDigitChars 10 (significand d) 0 * 10 ^ (leading d + 1 - (significand d).length) := by
  obtain ⟨count, split⟩ := exists_eq_stripZeros_append (Nat.toDigits 10 d.digits)
  have digits : d.digits = 10 ^ count * Nat.ofDigitChars 10 (significand d) 0 := by
    have number := congrArg (Nat.ofDigitChars 10 · 0) split
    simpa [significand, zeros, Nat.ofDigitChars_append, Nat.ofDigitChars_replicate_zero]
      using number
  have exponent : leading d + 1 - (significand d).length = count + d.exponent := by
    have length := congrArg List.length split
    simp only [List.length_append, zeros, List.length_replicate] at length
    simp only [leading, significand]
    omega
  rw [Decimal.value, exponent, zpow_add₀ (by norm_num), zpow_natCast, digits]
  push_cast
  ring

theorem isSignificand_significand (positive : 0 < d.word) : IsSignificand (significand d) := by
  apply isSignificand_stripZeros
  rcases Nat.eq_zero_or_pos d.digits with zero | digits
  · simp [Decimal.word, zero] at positive
  · exact digits

theorem decimalText_inj (positive : 0 < d.word) (finite : d.word < Binary64.infinity)
    (positive' : 0 < d'.word) (finite' : d'.word < Binary64.infinity)
    (same : layout.decimalText d = layout.decimalText d') : d.word = d'.word := by
  have digits := isSignificand_significand positive
  have digits' := isSignificand_significand positive'
  simp only [decimalText] at same
  have written : significand d = significand d' ∧ leading d = leading d' := by
    split at same <;> split at same
    · obtain ⟨digits_eq, point⟩ := plain_inj digits digits' same
      exact ⟨digits_eq, by omega⟩
    · exact absurd (same ▸ mem_exponential_marker layout) (not_mem_plain_marker digits)
    · exact absurd (same ▸ mem_exponential_marker layout) (not_mem_plain_marker digits')
    · exact exponential_inj layout digits same
  have value : d.value = d'.value := by
    rw [value_eq, value_eq, written.1, written.2]
  exact Decimal.word_eq_of_value_eq d d' value positive finite positive' finite'

theorem exists_digit_of_decimalText (positive : 0 < d.word) :
    ∃ c rest, layout.decimalText d = c :: rest ∧ isDigit c = true := by
  have digits := isSignificand_significand positive
  simp only [decimalText]
  split
  · exact exists_digit_of_plain digits
  · exact exists_digit_of_exponential layout digits

theorem decimalText_ne_zero (positive : 0 < d.word) : layout.decimalText d ≠ ['0'] := by
  have digits := isSignificand_significand positive
  simp only [decimalText]
  split
  · exact plain_ne_zero digits
  · intro zero
    exact absurd (zero ▸ mem_exponential_marker layout) (by decide)

end Decimals

end Layout

namespace Binary64

theorem units_pos (w : Nat) (positive : 0 < w) : 0 < units w := by
  rcases Nat.eq_zero_or_pos (units w) with zero | units
  · have rounded := round_units w
    rw [zero] at rounded
    exact absurd positive (by simp [← rounded, round, nearestQuotient])
  · exact units

theorem word_shortest_units (w : Nat) (positive : 0 < w) :
    (Decimal.shortest (units w)).word = w := by
  rw [Decimal.word_shortest _ (units_pos w positive), round_units]

end Binary64

namespace Layout
open Binary64

section Text
variable (layout : Layout) {v w : Nat}

theorem magnitude_units_zero : layout.magnitude (units 0) = ['0'] :=
  rfl

theorem magnitude_units (positive : 0 < w) :
    layout.magnitude (units w) = layout.decimalText (.shortest (units w)) :=
  if_neg (Nat.ne_of_gt (units_pos w positive))

theorem exists_digit_of_magnitude (w : Nat) :
    ∃ c rest, layout.magnitude (units w) = c :: rest ∧ isDigit c = true := by
  rcases Nat.eq_zero_or_pos w with rfl | positive
  · exact ⟨'0', [], layout.magnitude_units_zero, rfl⟩
  · rw [magnitude_units layout positive]
    exact layout.exists_digit_of_decimalText (by rwa [word_shortest_units w positive])

theorem magnitude_inj (finite : v < infinity) (finite' : w < infinity)
    (same : layout.magnitude (units v) = layout.magnitude (units w)) : v = w := by
  have apart {w : Nat} (positive : 0 < w) : layout.decimalText (.shortest (units w)) ≠ ['0'] :=
    layout.decimalText_ne_zero (by rwa [word_shortest_units w positive])
  rcases Nat.eq_zero_or_pos v with rfl | positive <;>
    rcases Nat.eq_zero_or_pos w with rfl | positive'
  · rfl
  · rw [magnitude_units_zero, magnitude_units layout positive'] at same
    exact absurd same.symm (apart positive')
  · rw [magnitude_units_zero, magnitude_units layout positive] at same
    exact absurd same (apart positive)
  · have word := word_shortest_units v positive
    have word' := word_shortest_units w positive'
    rw [magnitude_units layout positive, magnitude_units layout positive'] at same
    generalize Decimal.shortest (units v) = d at word same
    generalize Decimal.shortest (units w) = d' at word' same
    subst word word'
    exact layout.decimalText_inj positive finite positive' finite' same

theorem toList_text (x : Float) : (layout.text x).toList =
    if word x < infinity then
      (if negative x then ['-'] else []) ++ layout.magnitude (units (word x))
    else if word x = infinity then (if negative x then "-Inf" else "+Inf").toList
    else "NaN".toList := by
  rw [text, view]
  generalize negative x = sign
  by_cases finite : word x < infinity
  · rw [if_pos finite, if_pos finite, String.toList_ofList]
  · rw [if_neg finite, if_neg finite]
    by_cases infinite : word x = infinity
    · rw [if_pos infinite, if_pos infinite]
      cases sign <;> rfl
    · rw [if_neg infinite, if_neg infinite]

theorem any_isDigit_text (x : Float) :
    (layout.text x).toList.any isDigit = true ↔ word x < infinity := by
  rw [toList_text]
  by_cases finite : word x < infinity
  · obtain ⟨d, rest, number_eq, digit⟩ := layout.exists_digit_of_magnitude (word x)
    simp [finite, number_eq, digit]
  · rw [if_neg finite]
    refine iff_of_false ?_ finite
    split_ifs <;> decide

theorem signed_inj (sign sign' : Bool)
    (same : (if sign then ['-'] else []) ++ layout.magnitude (units v) =
      (if sign' then ['-'] else []) ++ layout.magnitude (units w)) :
    sign = sign' ∧ layout.magnitude (units v) = layout.magnitude (units w) := by
  obtain ⟨d, rest, number_eq, digit⟩ := layout.exists_digit_of_magnitude v
  obtain ⟨d', rest', number_eq', digit'⟩ := layout.exists_digit_of_magnitude w
  have no_minus (c : Char) (digit : isDigit c = true) : '-' ≠ c := by
    rintro rfl
    cases digit
  rw [number_eq, number_eq'] at same ⊢
  cases sign <;> cases sign'
  · exact ⟨rfl, same⟩
  · exact absurd (List.cons.inj same).1.symm (no_minus d digit)
  · exact absurd (List.cons.inj same).1 (no_minus d' digit')
  · exact ⟨rfl, (List.cons.inj same).2⟩

theorem text_injective : Function.Injective layout.text := by
  intro x y same
  have kind : word x < infinity ↔ word y < infinity := by
    rw [← layout.any_isDigit_text x, same, layout.any_isDigit_text]
  have chars : (layout.text x).toList = (layout.text y).toList := by rw [same]
  rw [toList_text, toList_text] at chars
  by_cases finite : word x < infinity
  · rw [if_pos finite, if_pos (kind.mp finite)] at chars
    obtain ⟨sign, number⟩ := layout.signed_inj _ _ chars
    exact eq_of_negative_of_word sign (layout.magnitude_inj finite (kind.mp finite) number)
  · have finite' := mt kind.mpr finite
    rw [if_neg finite, if_neg finite'] at chars
    have apart : ∀ sign : Bool, (if sign then "-Inf" else "+Inf").toList ≠ "NaN".toList := by decide
    by_cases infinite : word x = infinity <;> by_cases infinite' : word y = infinity
    · rw [if_pos infinite, if_pos infinite'] at chars
      refine eq_of_negative_of_word ?_ (infinite.trans infinite'.symm)
      generalize negative x = sign at chars ⊢
      generalize negative y = sign' at chars ⊢
      revert sign sign'
      decide
    · rw [if_pos infinite, if_neg infinite'] at chars
      exact absurd chars (apart _)
    · rw [if_neg infinite, if_pos infinite'] at chars
      exact absurd chars.symm (apart _)
    · exact eq_of_infinity_lt_word (by omega) (by omega)

end Text

end Layout
end Abacus.Number
