import Mathlib
import PrivatePresentation.Decimal.Integer

/-!
Runs of decimal digits and the numbers they are worth.
-/

namespace PrivatePresentation.Decimal

variable {c : Char}

theorem isDigit_iff : isDigit c = true ↔ 48 ≤ c.toNat ∧ c.toNat ≤ 57 := by
  simp [isDigit, Char.le_def, UInt32.le_iff_toNat_le]

theorem digitsValue_concat (digits : List Char) (c : Char) :
    digitsValue (digits ++ [c]) = 10 * digitsValue digits + (c.toNat - 48) := by
  simp [digitsValue]

theorem digitsValue_eq_ofDigitChars (digits : List Char) :
    digitsValue digits = Nat.ofDigitChars 10 digits 0 :=
  rfl

/-- Zeros in front do not count. -/
theorem digitsValue_zeros (k : Nat) (digits : List Char) :
    digitsValue (List.replicate k '0' ++ digits) = digitsValue digits := by
  have hzeros : Nat.ofDigitChars 10 (List.replicate k '0') 0 = 0 := by
    induction k with
    | zero => rfl
    | succ k ih =>
        rw [List.replicate_succ, Nat.ofDigitChars_cons]
        exact ih
  rw [digitsValue_eq_ofDigitChars, Nat.ofDigitChars_append, hzeros, digitsValue_eq_ofDigitChars]

/-- A run of digits is worth less than one more digit would be. -/
theorem digitsValue_lt {digits : List Char} (hdigits : ∀ c ∈ digits, isDigit c = true) :
    digitsValue digits < 10 ^ digits.length := by
  induction digits using List.reverseRecOn with
  | nil => simp [digitsValue]
  | append_singleton digits c ih =>
      have hc := isDigit_iff.1 (hdigits c (by simp))
      have hrest := ih fun d hd => hdigits d (by simp [hd])
      rw [digitsValue_concat, List.length_append, List.length_singleton, pow_succ]
      omega

section Numbers

variable {n : Nat}

theorem isDigit_of_mem_toDigits (hc : c ∈ Nat.toDigits 10 n) : isDigit c = true :=
  isDigit_iff.2 (Char.isDigit_iff_toNat.1 (Nat.isDigit_of_mem_toDigits (by decide) (by decide) hc))

theorem digitsValue_toDigits (n : Nat) : digitsValue (Nat.toDigits 10 n) = n := by
  rw [digitsValue_eq_ofDigitChars, Nat.ofDigitChars_ten_toDigits]

/-- The first digit of a number is zero only if the number is. -/
theorem toDigits_eq_zero (n : Nat) (hzero : (Nat.toDigits 10 n).head? = some '0') :
    Nat.toDigits 10 n = ['0'] := by
  induction n using Nat.strongRecOn with
  | _ n ih =>
      by_cases hsmall : n < 10
      · rw [Nat.toDigits_of_lt_base hsmall] at hzero ⊢
        exact congrArg ([·]) (Option.some.inj hzero)
      · have hdigits : Nat.toDigits 10 n = Nat.toDigits 10 (n / 10) ++ Nat.toDigits 10 (n % 10) := by
          rw [Nat.toDigits_append_toDigits (by decide) (by omega) (Nat.mod_lt n (by decide)),
            Nat.div_add_mod]
        rw [hdigits, List.head?_append_of_ne_nil _ (Nat.toDigits_ne_nil)] at hzero
        have hvalue := digitsValue_toDigits (n / 10)
        rw [ih (n / 10) (by omega) hzero] at hvalue
        have hnone : 0 = n / 10 := hvalue
        omega

end Numbers

end PrivatePresentation.Decimal
