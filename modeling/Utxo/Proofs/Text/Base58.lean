/-
**Base-58 text and byte strings stand one to one for each other.**

* `Base58.rebase_eq_iff`: rewriting a numeral in another base gives the one numeral of that base with as
  many leading zeros and the same number. Read backwards, it is rewriting from that base.
* `Base58.Denotes`: the rule of base-58. `decode_eq_ok_iff_denotes` and `denotes_iff_eq_encode`: texts
  are read and written by it; `decode_eq_ok_iff`: so each byte string has one text, and each text of the
  alphabet one byte string.
* `Base58.Refused`: the first character that is not of the alphabet; `decode_eq_error_iff`: it is why a
  text is refused, and there is no other reason.
-/

import Utxo.Proofs.Answer
import Utxo.Proofs.Bytes.Digits
import Utxo.Text.Base58

namespace Utxo.Base58

/-! ### Leading zeros -/

variable {source target : Nat} {digits result : List Nat}

/-- A numeral is its leading zeros and one without any. -/
theorem exists_bare (digits : List Nat) :
    ∃ bare, digits = List.replicate (leadingZeros digits) 0 ++ bare ∧ bare.head? ≠ some 0 := by
  induction digits with
  | nil => exact ⟨[], rfl, by simp⟩
  | cons digit rest ih =>
    by_cases zero : digit = 0
    · obtain ⟨bare, split, noZero⟩ := ih
      refine ⟨bare, ?_, noZero⟩
      have count : leadingZeros (digit :: rest) = leadingZeros rest + 1 := by
        simp [leadingZeros, zero]
      rw [count, List.replicate_succ, List.cons_append, ← split, zero]
    · exact ⟨digit :: rest, by simp [leadingZeros, zero], by simpa using zero⟩

theorem leadingZeros_replicate_append (count : Nat) {bare : List Nat} (noZero : bare.head? ≠ some 0) :
    leadingZeros (List.replicate count 0 ++ bare) = count := by
  induction count with
  | zero =>
    cases bare with
    | nil => rfl
    | cons digit rest =>
      have nonzero : digit ≠ 0 := fun zero => noZero (congrArg some zero)
      simp [leadingZeros, nonzero]
  | succ count ih =>
    have step : leadingZeros (0 :: (List.replicate count 0 ++ bare)) =
        leadingZeros (List.replicate count 0 ++ bare) + 1 := by simp [leadingZeros]
    rw [List.replicate_succ, List.cons_append, step, ih]

theorem value_replicate_append (base count : Nat) (bare : List Nat) :
    Radix.value base (List.replicate count 0 ++ bare) = Radix.value base bare := by
  rw [Radix.value_eq_ofDigits, Radix.value_eq_ofDigits, List.reverse_append, List.reverse_replicate,
    Nat.ofDigits_append_replicate_zero]

/-- **A numeral is told by its leading zeros and its number.** -/
theorem eq_rebase (large : 2 ≤ target) (below : ∀ digit ∈ result, digit < target)
    (zeros : leadingZeros result = leadingZeros digits)
    (value : Radix.value target result = Radix.value source digits) :
    rebase source target digits = result := by
  obtain ⟨bare, split, noZero⟩ := exists_bare result
  have bareBelow : ∀ digit ∈ bare, digit < target := fun digit member =>
    below digit (by rw [split]; exact List.mem_append_right _ member)
  have bareValue : Radix.value target bare = Radix.value source digits := by
    rw [← value, split, value_replicate_append]
  rw [rebase, ← bareValue, Radix.digits_value large bareBelow noZero, ← zeros]
  exact split.symm

/-- Rewriting keeps the leading zeros and the number. -/
theorem rebase_keeps (large : 2 ≤ target) (source : Nat) (digits : List Nat) :
    (∀ digit ∈ rebase source target digits, digit < target) ∧
      leadingZeros (rebase source target digits) = leadingZeros digits ∧
      Radix.value target (rebase source target digits) = Radix.value source digits := by
  refine ⟨fun digit member => ?_, ?_, ?_⟩
  · rcases List.mem_append.mp member with zero | within
    · rw [(List.mem_replicate.mp zero).2]
      exact Nat.lt_of_lt_of_le Nat.zero_lt_two large
    · exact Radix.digits_lt _ digit within
  · exact leadingZeros_replicate_append _ (Radix.head?_digits_ne_zero large _)
  · rw [rebase, value_replicate_append, Radix.value_digits large]

/-- **Rewriting keeps the leading zeros and the number, and nothing else does.** -/
theorem rebase_eq_iff (large : 2 ≤ target) :
    rebase source target digits = result ↔ (∀ digit ∈ result, digit < target) ∧
      leadingZeros result = leadingZeros digits ∧
      Radix.value target result = Radix.value source digits := by
  constructor
  · rintro rfl
    exact rebase_keeps large source digits
  · rintro ⟨below, zeros, value⟩
    exact eq_rebase large below zeros value

/-! ### The alphabet -/

theorem length_alphabet : alphabet.length = 58 := by decide +kernel

theorem digit_eq_getElem {number : Nat} (small : number < alphabet.length) :
    digit number = alphabet[number] := by
  rw [digit, List.getD_eq_getElem?_getD, List.getElem?_eq_getElem small]
  rfl

theorem digit_mem_alphabet {number : Nat} (small : number < 58) : digit number ∈ alphabet := by
  rw [← length_alphabet] at small
  rw [digit_eq_getElem small]
  exact List.getElem_mem small

theorem digit?_digit {number : Nat} (small : number < 58) : digit? (digit number) = some number := by
  have each : ∀ value : Fin 58, digit? (digit value) = some value.val := by decide +kernel
  exact each ⟨number, small⟩

theorem digit?_eq_some_iff {c : Char} {number : Nat} :
    digit? c = some number ↔ number < 58 ∧ digit number = c := by
  constructor
  · intro found
    obtain ⟨inside, here, -⟩ := List.idxOf?_eq_some_iff.mp found
    exact ⟨length_alphabet ▸ inside, (digit_eq_getElem inside).trans here⟩
  · rintro ⟨small, rfl⟩
    exact digit?_digit small

theorem digit?_eq_none_iff {c : Char} : digit? c = none ↔ c ∉ alphabet := List.idxOf?_eq_none_iff

theorem exists_digit?_of_mem {c : Char} (member : c ∈ alphabet) : ∃ number, digit? c = some number := by
  cases found : digit? c with
  | some number => exact ⟨number, rfl⟩
  | none => exact absurd member (digit?_eq_none_iff.mp found)

theorem toNat_le_of_mem {c : Char} (member : c ∈ alphabet) : c.toNat ≤ 127 := by
  have each : alphabet.all (·.toNat ≤ 127) = true := by decide +kernel
  exact of_decide_eq_true (List.all_eq_true.mp each c member)

/-! ### Reading characters -/

theorem digitsOf_cons_of_mem {c : Char} {number : Nat} (found : digit? c = some number)
    (position : Nat) (rest : List Char) :
    digitsOf position (c :: rest) = (number :: ·) <$> digitsOf (position + 1) rest := by
  have member : c ∈ alphabet := by
    obtain ⟨small, rfl⟩ := digit?_eq_some_iff.mp found
    exact digit_mem_alphabet small
  rw [digitsOf, if_neg (Nat.not_lt.mpr (toNat_le_of_mem member)), found]
  rfl

/-- Digits are read as what they were written for, whatever follows them. -/
theorem digitsOf_append {digits : List Nat} (below : ∀ number ∈ digits, number < 58) (position : Nat)
    (back : List Char) :
    digitsOf position (digits.map digit ++ back) =
      (digits ++ ·) <$> digitsOf (position + digits.length) back := by
  induction digits generalizing position with
  | nil =>
    show digitsOf position back = id <$> digitsOf position back
    rw [id_map]
  | cons number rest ih =>
    rw [List.forall_mem_cons] at below
    have offset : position + 1 + rest.length = position + (number :: rest).length := by
      rw [List.length_cons]
      omega
    rw [List.map_cons, List.cons_append, digitsOf_cons_of_mem (digit?_digit below.1), ih below.2,
      offset, Functor.map_map]
    rfl

/-- Characters of the alphabet are written for digits. -/
theorem exists_map_digit {chars : List Char} (inside : ∀ c ∈ chars, c ∈ alphabet) :
    ∃ digits : List Nat, (∀ number ∈ digits, number < 58) ∧ digits.map digit = chars := by
  induction chars with
  | nil => exact ⟨[], by simp, rfl⟩
  | cons c rest ih =>
    rw [List.forall_mem_cons] at inside
    obtain ⟨number, found⟩ := exists_digit?_of_mem inside.1
    obtain ⟨small, here⟩ := digit?_eq_some_iff.mp found
    obtain ⟨digits, below, same⟩ := ih inside.2
    exact ⟨number :: digits, List.forall_mem_cons.mpr ⟨small, below⟩, by rw [List.map_cons, here, same]⟩

theorem decode_of_map_digit {text : String} {digits : List Nat}
    (below : ∀ number ∈ digits, number < 58) (same : text.toList = digits.map digit) :
    decode text = .ok ((rebase 58 256 digits).map UInt8.ofNat) := by
  have read := digitsOf_append below 0 []
  rw [List.append_nil, ← same] at read
  rw [decode, read]
  show Except.ok ((rebase 58 256 (digits ++ [])).map UInt8.ofNat) = _
  rw [List.append_nil]

/-- Behind characters of the alphabet, reading goes on at the next one. -/
theorem digitsOf_of_foreign {front back : List Char} {c : Char}
    (inside : ∀ c ∈ front, c ∈ alphabet) {fault : Fault}
    (foreign : digitsOf front.length (c :: back) = .error fault) :
    digitsOf 0 (front ++ c :: back) = .error fault := by
  obtain ⟨digits, below, rfl⟩ := exists_map_digit inside
  rw [List.length_map] at foreign
  rw [digitsOf_append below, Nat.zero_add, foreign]
  rfl

/-- **A text is refused for its first character that is no digit**, at the place of this character. -/
inductive Refused (text : String) : Fault → Prop
  | notAscii {front back : List Char} {c : Char} (split : text.toList = front ++ c :: back)
      (digits : ∀ c ∈ front, c ∈ alphabet) (foreign : 127 < c.toNat) :
      Refused text (.notAscii front.length)
  | notInAlphabet {front back : List Char} {c : Char} (split : text.toList = front ++ c :: back)
      (digits : ∀ c ∈ front, c ∈ alphabet) (ascii : c.toNat ≤ 127) (foreign : c ∉ alphabet) :
      Refused text (.notInAlphabet c front.length)

theorem decode_of_refused {text : String} {fault : Fault} (refused : Refused text fault) :
    decode text = .error fault := by
  cases refused with
  | notAscii split digits foreign =>
    rw [decode, split, digitsOf_of_foreign digits]
    · rfl
    · rw [digitsOf, if_pos foreign]
  | notInAlphabet split digits ascii foreign =>
    rw [decode, split, digitsOf_of_foreign digits]
    · rfl
    · rw [digitsOf, if_neg (Nat.not_lt.mpr ascii), digit?_eq_none_iff.mpr foreign]

theorem forall_mem_or_refused (text : String) :
    (∀ c ∈ text.toList, c ∈ alphabet) ∨ ∃ fault, Refused text fault := by
  rcases forall_mem_or_exists_first (· ∈ alphabet) text.toList with
    inside | ⟨front, c, back, split, digits, foreign⟩
  · exact Or.inl inside
  · by_cases ascii : c.toNat ≤ 127
    · exact Or.inr ⟨_, .notInAlphabet split digits ascii foreign⟩
    · exact Or.inr ⟨_, .notAscii split digits (Nat.not_le.mp ascii)⟩

/-! ### Texts and byte strings -/

/-- **The rule of base-58.** The text is of digits; it begins with as many zero digits, written `1`, as
the bytes with zero bytes; and both denote one number. -/
def Denotes (text : String) (bytes : Bytes) : Prop :=
  ∃ digits : List Nat, (∀ number ∈ digits, number < 58) ∧ text.toList = digits.map digit ∧
    leadingZeros digits = leadingZeros (bytes.map UInt8.toNat) ∧
    Radix.value 58 digits = Radix.value 256 (bytes.map UInt8.toNat)

theorem denotes_iff_eq_encode {text : String} {bytes : Bytes} :
    Denotes text bytes ↔ text = encode bytes := by
  unfold Denotes encode
  constructor
  · rintro ⟨digits, below, same, zeros, value⟩
    rw [(rebase_eq_iff (by decide)).mpr ⟨below, zeros, value⟩, ← same, String.ofList_toList]
  · rintro rfl
    have large : 2 ≤ 58 := by decide
    obtain ⟨below, zeros, value⟩ := rebase_keeps large 256 (bytes.map UInt8.toNat)
    exact ⟨_, below, String.toList_ofList, zeros, value⟩

theorem decode_eq_ok_iff_denotes {text : String} {bytes : Bytes} :
    decode text = .ok bytes ↔ Denotes text bytes := by
  constructor
  · intro read
    rcases forall_mem_or_refused text with inside | ⟨fault, refused⟩
    · obtain ⟨digits, below, same⟩ := exists_map_digit inside
      rw [decode_of_map_digit below same.symm] at read
      have large : 2 ≤ 256 := by decide
      obtain ⟨small, zeros, value⟩ := rebase_keeps large 58 digits
      have values := Bytes.map_toNat_map_ofNat small
      rw [Except.ok.inj read] at values
      rw [← values] at zeros value
      exact ⟨digits, below, same.symm, zeros.symm, value.symm⟩
    · rw [decode_of_refused refused] at read
      cases read
  · rintro ⟨digits, below, same, zeros, value⟩
    rw [decode_of_map_digit below same, (rebase_eq_iff (show 2 ≤ 256 by decide)).mpr
      ⟨Bytes.toNat_lt_of_mem_map, zeros.symm, value.symm⟩, Bytes.map_ofNat_map_toNat]

/-- **Each byte string has one text**, and it is read from no other. -/
theorem decode_eq_ok_iff {text : String} {bytes : Bytes} :
    decode text = .ok bytes ↔ text = encode bytes :=
  decode_eq_ok_iff_denotes.trans denotes_iff_eq_encode

theorem decode_eq_error_iff {text : String} {fault : Fault} :
    decode text = .error fault ↔ Refused text fault := by
  refine eq_error_iff_of_refused decode_of_refused ((forall_mem_or_refused text).imp_left fun inside => ?_)
  obtain ⟨digits, below, same⟩ := exists_map_digit inside
  exact ⟨_, decode_of_map_digit below same.symm⟩

end Utxo.Base58
