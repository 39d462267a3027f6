/-
**Numerals without a leading zero stand one to one for numbers.**

* `Radix.digits_eq_reverse`, `Radix.value_eq_ofDigits`: numerals are those of `Nat.digits` and
  `Nat.ofDigits`, the most significant digit first.
* `Radix.digits_value`: digits below the base are those of the number that they denote, if the first of
  them is not zero; `Radix.head?_digits_ne_zero`: which it is in no numeral.
* `Radix.length_digits_le`: how many digits a number has.
-/

import Mathlib.Data.Nat.Digits.Lemmas
import Utxo.Numeral.Radix

namespace Utxo.Radix

variable {base : Nat} {digits : List Nat}

theorem value_append_singleton (base : Nat) (front : List Nat) (last : Nat) :
    value base (front ++ [last]) = value base front * base + last := by
  unfold value
  rw [valueFrom_append]
  rfl

theorem value_eq_ofDigits (base : Nat) (digits : List Nat) :
    value base digits = Nat.ofDigits base digits.reverse := by
  induction digits using List.reverseRecOn with
  | nil => rfl
  | append_singleton front last ih =>
    rw [value_append_singleton, ih, List.reverse_append, List.reverse_singleton,
      List.singleton_append, Nat.ofDigits_cons, Nat.mul_comm, Nat.add_comm]

theorem digits_pos (large : 2 ≤ base) {number : Nat} (positive : 0 < number) :
    Radix.digits base number = Radix.digits base (number / base) ++ [number % base] := by
  rw [Radix.digits, digitsOnto_pos large positive, digitsOnto_eq]

theorem digits_eq_reverse (large : 2 ≤ base) (number : Nat) :
    Radix.digits base number = (Nat.digits base number).reverse := by
  induction number using Nat.strongRecOn with
  | _ number ih =>
    by_cases positive : 0 < number
    · rw [digits_pos large positive, ih _ (Nat.div_lt_self positive large),
        Nat.digits_def' large positive, List.reverse_cons]
    · obtain rfl : number = 0 := by omega
      rw [Radix.digits, digitsOnto_zero, Nat.digits_zero, List.reverse_nil]

/-- **The digits of the number that digits denote**, unless they begin with a zero. -/
theorem digits_value (large : 2 ≤ base) (below : ∀ digit ∈ digits, digit < base)
    (bare : digits.head? ≠ some 0) : Radix.digits base (value base digits) = digits := by
  have lastNonzero : ∀ nonempty : digits.reverse ≠ [], digits.reverse.getLast nonempty ≠ 0 := by
    intro nonempty zero
    rw [List.getLast_reverse] at zero
    rw [List.head?_eq_some_head (List.reverse_ne_nil_iff.mp nonempty), zero] at bare
    exact bare rfl
  rw [digits_eq_reverse large, value_eq_ofDigits, Nat.digits_ofDigits base large digits.reverse
    (fun digit member => below digit (List.mem_reverse.mp member)) lastNonzero, List.reverse_reverse]

theorem head?_digits_ne_zero (large : 2 ≤ base) (number : Nat) :
    (Radix.digits base number).head? ≠ some 0 := by
  rw [digits_eq_reverse large, List.head?_reverse]
  by_cases zero : number = 0
  · simp [zero]
  · rw [List.getLast?_eq_some_getLast (Nat.digits_ne_nil_iff_ne_zero.mpr zero)]
    intro leading
    exact Nat.getLast_digit_ne_zero base zero (Option.some.inj leading)

/-- A number below a power of the base has no more digits than the exponent. -/
theorem length_digits_le (large : 2 ≤ base) {number width : Nat} (small : number < Nat.pow base width) :
    (Radix.digits base number).length ≤ width := by
  rw [digits_eq_reverse large, List.length_reverse]
  exact (Nat.digits_length_le_iff large number).mpr small

end Utxo.Radix
