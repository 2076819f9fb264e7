import ConversationFlow.Number.Layout
import Mathlib.Algebra.Group.Nat.Defs
import Mathlib.Data.List.Basic

/-!
# Digits that are written

The digits of a number stand for it, also after zeros.
-/

namespace ConversationFlow

theorem digitsOf_ne_nil (n : Nat) : digitsOf n ≠ [] :=
  Nat.toDigits_ne_nil

theorem isDigit_of_mem_digitsOf {n : Nat} {c : Char} (hc : c ∈ digitsOf n) : c.isDigit = true :=
  Nat.isDigit_of_mem_toDigits (by decide) (by decide) hc

theorem isDigit_of_mem_zeros_append {zeros n : Nat} {c : Char}
    (hc : c ∈ List.replicate zeros '0' ++ digitsOf n) : c.isDigit = true := by
  rcases List.mem_append.1 hc with hzero | hdigit
  · rw [List.eq_of_mem_replicate hzero]
    decide
  · exact isDigit_of_mem_digitsOf hdigit

theorem isDigit_of_mem_append_zeros {zeros n : Nat} {c : Char}
    (hc : c ∈ digitsOf n ++ List.replicate zeros '0') : c.isDigit = true :=
  isDigit_of_mem_zeros_append (List.mem_append.2 (List.mem_append.1 hc).symm)

theorem head?_digitsOf_ne {n : Nat} (hn : 0 < n) : (digitsOf n).head? ≠ some '0' := by
  induction n using Nat.strongRecOn with
  | ind n ih =>
    rcases Nat.lt_or_ge n 10 with hsmall | hlarge
    · rw [digitsOf, Nat.toDigits_of_lt_base hsmall, List.head?_cons, ne_eq, Option.some.injEq,
        Nat.digitChar_eq_zero]
      omega
    · rw [digitsOf, Nat.toDigits_of_base_le (by decide) hlarge,
        List.head?_append_of_ne_nil _ Nat.toDigits_ne_nil]
      exact ih (n / 10) (by omega) (by omega)

theorem ofDigitChars_zeros_append (zeros n : Nat) :
    Nat.ofDigitChars 10 (List.replicate zeros '0' ++ digitsOf n) 0 = n := by
  rw [Nat.ofDigitChars_append, Nat.ofDigitChars_replicate_zero, Nat.mul_zero, digitsOf,
    Nat.ofDigitChars_ten_toDigits]

theorem ofDigitChars_append_zeros (n zeros : Nat) :
    Nat.ofDigitChars 10 (digitsOf n ++ List.replicate zeros '0') 0 = n * 10 ^ zeros := by
  rw [Nat.ofDigitChars_append, Nat.ofDigitChars_replicate_zero, digitsOf,
    Nat.ofDigitChars_ten_toDigits, Nat.mul_comm]

end ConversationFlow
