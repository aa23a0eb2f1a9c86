import Mathlib.Data.Nat.Digits.Defs
import Abacus.Text.Digit

/-!
The digits of a number in a base up to sixteen. Main statement: their positional value is the
number.
-/
namespace Abacus.Text

section Base
variable (base : Nat) (many : 1 < base)
include many

theorem forall_mem_toDigits (p : Char → Prop) (each : ∀ d < base, p (Nat.digitChar d)) (n : Nat) :
    ∀ c ∈ Nat.toDigits base n, p c := by
  induction n using Nat.base_induction base many with
  | single m small => simpa [Nat.toDigits_of_lt_base small] using each m small
  | digit m k small nonzero ih =>
      rw [← Nat.toDigits_append_toDigits many nonzero small, Nat.toDigits_of_lt_base small]
      exact List.forall_mem_append.mpr ⟨ih, by simpa using each k small⟩

theorem head?_toDigits (n : Nat) (positive : 0 < n) : (Nat.toDigits base n).head? ≠ some '0' := by
  induction n using Nat.base_induction base many with
  | single m small =>
      simp only [Nat.toDigits_of_lt_base small, List.head?_cons, ne_eq, Option.some.injEq,
        Nat.digitChar_eq_zero]
      omega
  | digit m k small nonzero ih =>
      have front := ih nonzero
      rw [← Nat.toDigits_append_toDigits many nonzero small]
      cases digits_eq : Nat.toDigits base m with
      | nil => exact absurd digits_eq Nat.toDigits_ne_nil
      | cons c rest => simpa [digits_eq] using front

variable (few : base ≤ 16)
include few

theorem newline_not_mem_toDigits (n : Nat) : '\n' ∉ Nat.toDigits base n := by
  have digit : ∀ d < 16, Nat.digitChar d ≠ '\n' := by decide
  exact fun member => forall_mem_toDigits base many (· ≠ '\n')
    (fun d small => digit d (Nat.lt_of_lt_of_le small few)) n '\n' member rfl

theorem positional_toDigits (n : Nat) : positional base (Nat.toDigits base n) = n := by
  have digit : ∀ d < 16, (digitValue? (Nat.digitChar d)).getD 0 = d := by decide
  induction n using Nat.base_induction base many with
  | single m small =>
      simp [Nat.toDigits_of_lt_base small, positional, digit m (Nat.lt_of_lt_of_le small few)]
  | digit m k small nonzero ih =>
      rw [← Nat.toDigits_append_toDigits many nonzero small, Nat.toDigits_of_lt_base small]
      rw [positional] at ih ⊢
      rw [List.foldl_append, ih, List.foldl_cons, List.foldl_nil,
        digit k (Nat.lt_of_lt_of_le small few), Nat.mul_comm]

end Base

theorem isDigit_of_mem_toDigits (n : Nat) : ∀ c ∈ Nat.toDigits 10 n, isDigit c = true :=
  forall_mem_toDigits 10 (by decide) (isDigit · = true) (by decide) n

end Abacus.Text
