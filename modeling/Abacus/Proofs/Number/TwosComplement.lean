import Mathlib.Data.Int.Bitwise

/-!
Integers of 32 bits next to the integers. Main statements: bitwise operations act on the bits of
two's complement, which go on to the left without an end, and shifts multiply and divide by powers
of two.
-/
namespace Abacus.Number

def residue (n : Int) : Int :=
  n.bmod (2 ^ 32)

@[simp] theorem residue_toInt (a : Int32) : residue a.toInt = a.toInt :=
  a.toInt_bmod

section Bits

theorem eq_of_testBit_eq (a b : Int) (same : ∀ k, a.testBit k = b.testBit k) : a = b := by
  -- far enough to the left, the bits show the sign
  have differ (m n : Nat) : ¬ ∀ k, m.testBit k = !n.testBit k := by
    intro opposite
    have first : m.testBit (max m n) = false :=
      Nat.testBit_lt_two_pow (Nat.lt_of_le_of_lt (Nat.le_max_left m n) Nat.lt_two_pow_self)
    have second : n.testBit (max m n) = false :=
      Nat.testBit_lt_two_pow (Nat.lt_of_le_of_lt (Nat.le_max_right m n) Nat.lt_two_pow_self)
    simpa [first, second] using opposite (max m n)
  match a, b with
  | .ofNat m, .ofNat n => exact congrArg Int.ofNat (Nat.eq_of_testBit_eq same)
  | .ofNat m, .negSucc n => exact absurd same (differ m n)
  | .negSucc m, .ofNat n => exact absurd (fun k => (same k).symm) (differ n m)
  | .negSucc m, .negSucc n =>
      exact congrArg Int.negSucc (Nat.eq_of_testBit_eq fun k => Bool.not_inj (same k))

theorem testBit_toInt {w : Nat} (x : BitVec w) (k : Nat) :
    x.toInt.testBit k = if k < w then x.getLsbD k else x.msb := by
  cases sign : x.msb with
  | false =>
      rw [BitVec.toInt_eq_toNat_of_msb sign]
      split
      · rfl
      · rename_i high
        exact BitVec.getLsbD_of_ge x k (Nat.le_of_not_lt high)
  | true =>
      have value : x.toInt = .negSucc (~~~x).toNat := by
        have bound := x.isLt
        have cast : ((2 ^ w : Nat) : Int) = 2 ^ w := by simp
        rw [BitVec.toInt_eq_msb_cond, sign, BitVec.toNat_not]
        simp only [↓reduceIte, Int.negSucc_eq]
        omega
      rw [value]
      show (!(~~~x).getLsbD k) = _
      rw [BitVec.getLsbD_not]
      split
      · rename_i low
        simp [low]
      · rename_i high
        simp [high]

variable (a b : Int32)

theorem toInt_eq_bitwise (f : Bool → Bool → Bool) (c : Int32)
    (bits : ∀ k < 32, c.toBitVec.getLsbD k = f (a.toBitVec.getLsbD k) (b.toBitVec.getLsbD k)) :
    c.toInt = Int.bitwise f a.toInt b.toInt := by
  apply eq_of_testBit_eq
  intro k
  rw [Int.testBit_bitwise]
  simp only [Int32.toInt, testBit_toInt]
  split
  · rename_i low
    exact bits k low
  · simpa only [BitVec.msb_eq_getLsbD_last] using bits 31 (by decide)

theorem toInt_and : (a &&& b).toInt = a.toInt.land b.toInt := by
  rw [← Int.bitwise_and]
  exact toInt_eq_bitwise a b and _ fun k _ => by rw [Int32.toBitVec_and, BitVec.getLsbD_and]

theorem toInt_or : (a ||| b).toInt = a.toInt.lor b.toInt := by
  rw [← Int.bitwise_or]
  exact toInt_eq_bitwise a b or _ fun k _ => by rw [Int32.toBitVec_or, BitVec.getLsbD_or]

theorem toInt_xor : (a ^^^ b).toInt = a.toInt.xor b.toInt := by
  rw [← Int.bitwise_xor]
  exact toInt_eq_bitwise a b xor _ fun k _ => by rw [Int32.toBitVec_xor, BitVec.getLsbD_xor]

theorem lnot_eq (n : Int) : n.lnot = -n - 1 := by
  cases n with
  | ofNat k =>
      show Int.negSucc k = -(k : Int) - 1
      omega
  | negSucc k =>
      show (k : Int) = -Int.negSucc k - 1
      omega

end Bits

section Shifts
variable (a b : Int32) (low : 0 ≤ b.toInt) (high : b.toInt ≤ 31)
include low high

theorem toNat_smod_of_le : (b.toBitVec.smod 32).toNat = b.toInt.toNat := by
  have value : (b.toBitVec.smod 32).toInt = b.toInt := by
    rw [BitVec.toInt_smod, show (32 : BitVec 32).toInt = 32 from rfl]
    exact Int.fmod_eq_of_lt low (by show b.toInt < 32; omega)
  have positive : (b.toBitVec.smod 32).msb = false := by
    rw [BitVec.msb_eq_toInt, value]
    simpa using low
  rw [← value, BitVec.toInt_eq_toNat_of_msb positive, Int.toNat_natCast]

theorem toInt_shiftLeft : (a <<< b).toInt = residue (a.toInt * 2 ^ b.toInt.toNat) := by
  have word : a.toInt = (a.toBitVec.toNat : Int).bmod (2 ^ 32) := BitVec.toInt_eq_toNat_bmod _
  calc (a <<< b).toInt
    _ = (a.toBitVec <<< b.toInt.toNat).toInt := by
        rw [Int32.toInt, Int32.toBitVec_shiftLeft, BitVec.shiftLeft_eq',
          toNat_smod_of_le b low high]
    _ = ((a.toBitVec.toNat : Int) * 2 ^ b.toInt.toNat).bmod (2 ^ 32) := by
        rw [BitVec.toInt_shiftLeft, Nat.shiftLeft_eq, Int.natCast_mul, Int.natCast_pow]
        rfl
    _ = residue (a.toInt * 2 ^ b.toInt.toNat) := by rw [residue, word, Int.bmod_mul_bmod]

theorem toInt_shiftRight : (a >>> b).toInt = a.toInt.fdiv (2 ^ b.toInt.toNat) := by
  calc (a >>> b).toInt
    _ = (a.toBitVec.sshiftRight b.toInt.toNat).toInt := by
        rw [Int32.toInt, Int32.toBitVec_shiftRight, BitVec.sshiftRight',
          toNat_smod_of_le b low high]
    _ = a.toInt / 2 ^ b.toInt.toNat := by
        rw [BitVec.toInt_sshiftRight, Int.shiftRight_eq_div_pow, Int.natCast_pow]
        rfl
    _ = a.toInt.fdiv (2 ^ b.toInt.toNat) :=
        (Int.fdiv_eq_ediv_of_nonneg _ (Int.pow_nonneg (by decide))).symm

end Shifts

end Abacus.Number
