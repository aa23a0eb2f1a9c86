import Abacus.Number.Shortest
import Abacus.Proofs.Number.Binary64

/-!
Rounding, and the decimals that stand for doubles. Main statements: rounding depends only on the
quotient and gives back the word of a double, and reading the shortest decimal does the same.
-/
namespace Abacus.Number

namespace Binary64

theorem nearestQuotient_mul (num den k : Nat) (positive : 0 < k) :
    nearestQuotient (num * k) (den * k) = nearestQuotient num den := by
  have twice (r : Nat) : 2 * (r * k) = 2 * r * k := (Nat.mul_assoc 2 r k).symm
  simp only [nearestQuotient, Nat.mul_div_mul_right _ _ positive, Nat.mul_mod_mul_right, twice,
    Nat.mul_lt_mul_right positive]

theorem round_mul (num den k : Nat) (positive : 0 < k) :
    round (num * k) (den * k) = round num den := by
  simp only [round, Nat.mul_div_mul_right _ _ positive, Nat.mul_right_comm den k,
    nearestQuotient_mul _ _ _ positive]

theorem round_eq_of_mul_eq (num den num' den' : Nat) (positive : 0 < den) (positive' : 0 < den')
    (same : num * den' = num' * den) : round num den = round num' den' := by
  rw [← round_mul num den den' positive', same, Nat.mul_comm den den',
    round_mul num' den' den positive]

theorem nearestQuotient_of_dvd (quotient den : Nat) (positive : 0 < den) :
    nearestQuotient (quotient * den) den = quotient := by
  simp [nearestQuotient, Nat.mul_div_cancel _ positive, positive]

theorem log2_shifted (fraction e : Nat) (below : fraction < leadingBit) :
    ((leadingBit + fraction) * 2 ^ e).log2 = 52 + e := by
  rw [leadingBit_eq] at below ⊢
  apply (Nat.log2_eq_iff (by positivity)).mpr
  rw [Nat.add_right_comm, pow_add, pow_add 2 (52 + 1) e]
  exact ⟨Nat.mul_le_mul_right _ (by omega), Nat.mul_lt_mul_of_pos_right (by omega) (by positivity)⟩

theorem round_units (w : Nat) : round (units w) 1 = w := by
  have split := Nat.div_add_mod w leadingBit
  have below : w % leadingBit < leadingBit := Nat.mod_lt _ (by decide)
  simp only [units, round, Nat.div_one, Nat.one_mul, Nat.pow_eq]
  split
  · rename_i subnormal
    have small : w < 2 ^ 52 := by
      rw [subnormal, leadingBit_eq] at split
      rw [leadingBit_eq] at below
      omega
    have shift : w.log2 - 52 = 0 := by
      rcases Nat.eq_zero_or_pos w with rfl | positive
      · rfl
      · have := (Nat.log2_lt (Nat.ne_of_gt positive)).mpr small
        omega
    rw [shift]
    simpa using nearestQuotient_of_dvd w 1 Nat.one_pos
  · rename_i normal
    generalize w / leadingBit = exponent at split normal ⊢
    generalize w % leadingBit = fraction at split below ⊢
    obtain ⟨e, rfl⟩ := Nat.exists_eq_succ_of_ne_zero normal
    rw [Nat.succ_sub_one, log2_shifted fraction e below, Nat.add_sub_cancel_left,
      nearestQuotient_of_dvd _ _ (Nat.pow_pos Nat.two_pos), ← split, Nat.mul_comm, ← Nat.add_assoc,
      ← Nat.mul_succ]

end Binary64

namespace Decimal
open Binary64

def value (d : Decimal) : ℚ :=
  d.digits * 10 ^ d.exponent

theorem word_eq_round (d : Decimal) (positive : 0 < d.word) (finite : d.word < infinity) :
    ∃ num den : Nat, 0 < den ∧ (num : ℚ) / den = d.value * one ∧ d.word = round num den := by
  obtain ⟨digits, exponent⟩ := d
  simp only [word, value] at positive finite ⊢
  generalize one = unit at positive finite ⊢
  split_ifs at positive finite ⊢ with zero large small
  · exact absurd positive (Nat.lt_irrefl _)
  · exact absurd finite (Nat.lt_irrefl _)
  · exact absurd positive (Nat.lt_irrefl _)
  · cases exponent with
    | ofNat k =>
        refine ⟨digits * Nat.pow 10 k * unit, 1, Nat.one_pos, ?_, rfl⟩
        simp
    | negSucc k =>
        refine ⟨digits * unit, Nat.pow 10 (k + 1), Nat.pow_pos (by decide), ?_, rfl⟩
        rw [zpow_negSucc, Nat.pow_eq]
        push_cast
        ring

theorem word_eq_of_value_eq (a b : Decimal) (same : a.value = b.value) (positive : 0 < a.word)
    (finite : a.word < infinity) (positive' : 0 < b.word) (finite' : b.word < infinity) :
    a.word = b.word := by
  obtain ⟨num, den, den_pos, quotient, rounded⟩ := a.word_eq_round positive finite
  obtain ⟨num', den', den_pos', quotient', rounded'⟩ := b.word_eq_round positive' finite'
  rw [rounded, rounded']
  apply round_eq_of_mul_eq num den num' den' den_pos den_pos'
  rw [same, ← quotient', div_eq_div_iff (by positivity) (by positivity)] at quotient
  exact_mod_cast quotient

theorem nearer_eq_or (low high : Decimal) (order : Ordering) :
    nearer low high order = low ∨ nearer low high order = high := by
  cases order with
  | lt => exact .inl rfl
  | gt => exact .inr rfl
  | eq => exact ite_eq_or_eq ..

theorem word_of_pick? (n count : Nat) (d : Decimal) (picked : pick? n count = some d) :
    d.word = round n 1 := by
  unfold pick? at picked
  generalize neighbours n count = around at picked
  obtain ⟨low, high⟩ := around
  simp only at picked
  split at picked
  · rename_i low_reads
    split at picked
    · rename_i high_reads
      obtain rfl := Option.some.inj picked
      rcases nearer_eq_or low high (compareMiddle n low) with same | same
      · rw [same, low_reads]
      · rw [same, high_reads]
    · obtain rfl := Option.some.inj picked
      exact low_reads
  · split at picked
    · rename_i high_reads
      obtain rfl := Option.some.inj picked
      exact high_reads
    · cases picked

theorem word_of_places (n places : Nat) (positive : 0 < n) (several : 0 < places)
    (units : one = Nat.pow 2 places) : word ⟨n * Nat.pow 5 places, -places⟩ = round n 1 := by
  obtain ⟨k, rfl⟩ := Nat.exists_eq_succ_of_ne_zero (Nat.ne_of_gt several)
  have digits : n * 5 ^ (k + 1) ≠ 0 := by positivity
  have large : k + 1 ≤ (n * 5 ^ (k + 1)).log2 := by
    apply (Nat.le_log2 digits).mpr
    calc 2 ^ (k + 1) ≤ 5 ^ (k + 1) := Nat.pow_le_pow_left (by decide) _
      _ ≤ n * 5 ^ (k + 1) := Nat.le_mul_of_pos_left _ positive
  have exponent : -((k + 1 : Nat) : Int) = .negSucc k := rfl
  simp only [word, Nat.pow_eq, Nat.succ_eq_add_one, exponent, units] at digits large ⊢
  rw [if_neg digits, if_neg (by omega), if_neg (by omega)]
  apply round_eq_of_mul_eq _ _ n 1 (by positivity) Nat.one_pos
  rw [Nat.mul_one, Nat.mul_assoc, ← Nat.mul_pow]

theorem word_exact (n : Nat) (positive : 0 < n) : (exact n).word = round n 1 := by
  have units : one = Nat.pow 2 unitPlaces := by
    unfold one
    rfl
  exact word_of_places n unitPlaces positive (by decide) units

theorem word_shortest (n : Nat) (positive : 0 < n) : (shortest n).word = round n 1 := by
  rw [shortest]
  cases found : (List.range' 1 17).findSome? (pick? n) with
  | none => exact word_exact n positive
  | some d =>
      obtain ⟨count, -, picked⟩ := List.exists_of_findSome?_eq_some found
      exact word_of_pick? n count d picked

end Decimal
end Abacus.Number
