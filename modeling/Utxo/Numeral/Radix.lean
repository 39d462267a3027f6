/-
**Positional numerals: a number as its digits in a base, most significant digit first.**

* `Radix.value base digits`: the number that the digits denote.
* `Radix.digits base number`: the digits of a number, without a leading zero; zero has no digit.
* `value_digits`: the digits of a number denote it; `digits_lt`: each is below the base.
-/

namespace Utxo.Radix

/-- The number denoted by `digits` written behind the numeral of `start`. -/
def valueFrom (base : Nat) (start : Nat) (digits : List Nat) : Nat :=
  digits.foldl (fun number digit => number * base + digit) start

/-- The number denoted by `digits`. -/
def value (base : Nat) (digits : List Nat) : Nat := valueFrom base 0 digits

/-- The digits of `number` put in front of `behind`. -/
def digitsOnto (base number : Nat) (behind : List Nat) : List Nat :=
  if _ : 2 ≤ base ∧ 0 < number then
    digitsOnto base (number / base) (number % base :: behind)
  else behind
termination_by number
decreasing_by exact Nat.div_lt_self (by omega) (by omega)

/-- The digits of `number`; none for zero. -/
def digits (base number : Nat) : List Nat := digitsOnto base number []

theorem digitsOnto_zero (base : Nat) (behind : List Nat) : digitsOnto base 0 behind = behind := by
  unfold digitsOnto
  simp

theorem digitsOnto_pos {base number : Nat} (large : 2 ≤ base) (positive : 0 < number)
    (behind : List Nat) :
    digitsOnto base number behind = digitsOnto base (number / base) (number % base :: behind) := by
  rw [digitsOnto]
  simp [large, positive]

/-- What stands behind stays behind. -/
theorem digitsOnto_append (base number : Nat) (near far : List Nat) :
    digitsOnto base number (near ++ far) = digitsOnto base number near ++ far := by
  induction number using Nat.strongRecOn generalizing near with
  | _ number ih =>
    by_cases rest : 2 ≤ base ∧ 0 < number
    · rw [digitsOnto_pos rest.1 rest.2, digitsOnto_pos rest.1 rest.2, ← List.cons_append,
        ih _ (Nat.div_lt_self rest.2 rest.1)]
    · rw [digitsOnto, dif_neg rest, digitsOnto, dif_neg rest]

theorem digitsOnto_eq (base number : Nat) (behind : List Nat) :
    digitsOnto base number behind = digits base number ++ behind := by
  rw [digits, ← digitsOnto_append, List.nil_append]

theorem valueFrom_append (base start : Nat) (front back : List Nat) :
    valueFrom base start (front ++ back) = valueFrom base (valueFrom base start front) back := by
  simp [valueFrom]

/-- The digits of a number denote that number. -/
theorem value_digits {base : Nat} (large : 2 ≤ base) (number : Nat) :
    value base (digits base number) = number := by
  induction number using Nat.strongRecOn with
  | _ number ih =>
    by_cases positive : 0 < number
    · rw [digits, digitsOnto_pos large positive, digitsOnto_eq, value, valueFrom_append]
      have shorter := ih _ (Nat.div_lt_self positive large)
      rw [value] at shorter
      rw [shorter, valueFrom, List.foldl_cons, List.foldl_nil, Nat.mul_comm]
      exact Nat.div_add_mod number base
    · have zero : number = 0 := by omega
      subst zero
      simp [digits, digitsOnto_zero, value, valueFrom]

/-- Every digit is below the base. -/
theorem digits_lt {base : Nat} (number : Nat) :
    ∀ digit ∈ digits base number, digit < base := by
  induction number using Nat.strongRecOn with
  | _ number ih =>
    by_cases rest : 2 ≤ base ∧ 0 < number
    · rw [digits, digitsOnto_pos rest.1 rest.2, digitsOnto_eq]
      intro digit member
      rcases List.mem_append.mp member with earlier | last
      · exact ih _ (Nat.div_lt_self rest.2 rest.1) digit earlier
      · rw [List.mem_singleton.mp last]
        exact Nat.mod_lt _ (by omega)
    · rw [digits, digitsOnto]
      simp [rest]

end Utxo.Radix
