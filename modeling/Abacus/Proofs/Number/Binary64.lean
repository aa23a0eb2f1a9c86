import Mathlib
import Abacus.Number.Decimal

/-!
Words of doubles. Main statements: a double that is built from the word of a finite number has this
word, and doubles of one sign and word are the same.
-/
namespace Abacus.Number.Binary64
open Float.Model.UnpackedFloat
open Float.Model (Format)

theorem signBit_eq : signBit = 2 ^ 63 :=
  rfl

theorem leadingBit_eq : leadingBit = 2 ^ 52 :=
  rfl

theorem infinity_eq : infinity = 2047 * 2 ^ 52 :=
  rfl

theorem toNat_unpackExponent (b : BitVec Format.binary64.numBits) :
    (unpackExponent b).toNat = b.toNat % signBit / leadingBit := by
  simp only [unpackExponent, BitVec.toNat_cast, BitVec.extractLsb_toNat, Nat.shiftRight_eq_div_pow,
    signBit_eq, leadingBit_eq]
  omega

theorem toNat_unpackMantissa (b : BitVec Format.binary64.numBits) :
    (unpackMantissa b).toNat = b.toNat % leadingBit := by
  simp only [unpackMantissa, BitVec.toNat_cast, BitVec.extractLsb_toNat, Nat.shiftRight_zero,
    leadingBit_eq]

theorem toBits_ofBits (bits : UInt64) (finite : bits.toNat % signBit < infinity) :
    (Float.ofBits bits).toBits = bits := by
  have exponent : (@unpackExponent .binary64 bits.toBitVec).toNat < 2047 := by
    rw [toNat_unpackExponent]
    exact Nat.div_lt_of_lt_mul (by rwa [Nat.mul_comm])
  -- only an exponent of ones, that of NaN, has bits that are not kept
  have valid : Format.binary64.Valid bits.toBitVec := by
    refine ⟨fun ones => absurd exponent ?_⟩
    rw [ones]
    decide
  exact congrArg UInt64.ofBitVec (pack_unpack_of_valid valid)

section Words
variable (sign : Bool) (w : Nat) (finite : w < infinity)
include finite

theorem toNat_toBits_ofWord :
    (ofWord sign w).toBits.toNat = (if sign then signBit else 0) + w := by
  have bits : (UInt64.ofNat ((if sign then signBit else 0) + min w infinity)).toNat =
      (if sign then signBit else 0) + w := by
    rw [Nat.min_eq_left (Nat.le_of_lt finite), UInt64.toNat_ofNat']
    apply Nat.mod_eq_of_lt
    simp only [infinity_eq, signBit_eq] at finite ⊢
    split <;> omega
  rw [ofWord, toBits_ofBits, bits]
  rw [bits]
  simp only [infinity_eq, signBit_eq] at finite ⊢
  split <;> omega

theorem word_ofWord : word (ofWord sign w) = w := by
  rw [word, toNat_toBits_ofWord sign w finite]
  simp only [infinity_eq, signBit_eq] at finite ⊢
  split <;> omega

theorem isFinite_ofWord : isFinite (ofWord sign w) = true := by
  rw [isFinite, word_ofWord sign w finite, decide_eq_true finite]

end Words

section Bits

theorem eq_of_toBits {x y : Float} (same : x.toBits = y.toBits) : x = y := by
  obtain ⟨⟨bits, valid⟩⟩ := x
  obtain ⟨⟨bits', valid'⟩⟩ := y
  obtain rfl : bits = bits' := same
  rfl

theorem eq_of_negative_of_word {x y : Float} (sign : negative x = negative y)
    (same : word x = word y) : x = y := by
  apply eq_of_toBits
  apply UInt64.toNat_inj.mp
  have bound := x.toBits.toNat_lt
  have bound' := y.toBits.toNat_lt
  have sign := decide_eq_decide.mp sign
  simp only [word, signBit_eq] at sign same
  omega

theorem toBitVec_of_infinity_lt_word {x : Float} (nan : infinity < word x) :
    x.toBits.toBitVec = packedNaN .binary64 := by
  have below : word x < signBit := Nat.mod_lt _ (by decide)
  simp only [infinity_eq, signBit_eq] at nan below
  apply x.toModel.valid.eq_packedNaN
  · apply BitVec.eq_of_toNat_eq
    rw [toNat_unpackExponent]
    show word x / leadingBit = 2047
    rw [leadingBit_eq]
    omega
  · intro zero
    have fraction : word x % leadingBit = 0 := by
      have := congrArg BitVec.toNat zero
      rw [toNat_unpackMantissa] at this
      rw [word, Nat.mod_mod_of_dvd _ (by decide)]
      exact this
    rw [leadingBit_eq] at fraction
    omega

theorem eq_of_infinity_lt_word {x y : Float} (nan : infinity < word x) (nan' : infinity < word y) :
    x = y := by
  apply eq_of_toBits
  apply UInt64.toBitVec_inj.mp
  rw [toBitVec_of_infinity_lt_word nan, toBitVec_of_infinity_lt_word nan']

end Bits

end Abacus.Number.Binary64
