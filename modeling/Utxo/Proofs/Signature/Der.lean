/-
**The bytes of a signature are read back.**

* `Der.decode_integerContent`: the content of an integer holds its number;
  `Der.exists_integerContent`, `Der.isPadded_integerContent`: it is not negative, and no shorter one
  would do.
* `Der.decodeInteger?_encodeInteger`: so an integer is read back, whatever stands behind it.
* `Der.decode?_encode`: a signature of two scalars is read back; `Der.encode_inj`: so no two of these share
  their bytes.
-/

import Utxo.Proofs.Bytes.Digits
import Utxo.Proofs.Signature.Length

namespace Utxo.Der

open Curve

variable {number : Nat} {signature : Signature}

/-! ### Contents of integers -/

/-- The digits of a number in base 256, as bytes. -/
def digitBytes (number : Nat) : Bytes := (Radix.digits 256 number).map UInt8.ofNat

theorem decode_digitBytes (number : Nat) : BigEndian.decode (digitBytes number) = number := by
  rw [BigEndian.decode_eq_value, digitBytes, Bytes.map_toNat_map_ofNat (Radix.digits_lt number),
    Radix.value_digits (by decide)]

/-- The first digit is not zero. -/
theorem head?_digitBytes_ne_zero (number : Nat) : (digitBytes number).head? ≠ some 0 := by
  intro zero
  have values := congrArg (Option.map UInt8.toNat) zero
  rw [← List.head?_map, digitBytes, Bytes.map_toNat_map_ofNat (Radix.digits_lt number)] at values
  exact Radix.head?_digits_ne_zero (by decide) number values

/-- A content is the digits of its number, or these behind a zero if the first has its high bit set. -/
theorem integerContent_eq (number : Nat) :
    integerContent number =
      if (digitBytes number).headD 0x80 < 0x80 then digitBytes number else 0 :: digitBytes number := rfl

theorem decode_integerContent (number : Nat) : BigEndian.decode (integerContent number) = number := by
  rw [integerContent_eq]
  split
  next => exact decode_digitBytes number
  next =>
    have bare := decode_digitBytes number
    rw [BigEndian.decode_eq_value] at bare ⊢
    exact bare

/-- A content has a first byte, and is not negative. -/
theorem exists_integerContent (number : Nat) :
    ∃ first rest, integerContent number = first :: rest ∧ first < 0x80 := by
  rw [integerContent_eq]
  split
  next small =>
    cases digits : digitBytes number with
    | nil =>
      rw [digits] at small
      exact absurd small (by decide)
    | cons first rest =>
      rw [digits] at small
      exact ⟨first, rest, rfl, small⟩
  next => exact ⟨0, _, rfl, by decide⟩

/-- No byte in front could be left out. -/
theorem isPadded_integerContent (number : Nat) : isPadded (integerContent number) = false := by
  have bare := head?_digitBytes_ne_zero number
  rw [integerContent_eq]
  cases digits : digitBytes number with
  | nil => rfl
  | cons first rest =>
    rw [digits, List.head?_cons, Ne, Option.some.injEq] at bare
    rw [List.headD_cons]
    split
    next small =>
      have notFull : first ≠ 0xff := by
        rintro rfl
        exact absurd small (by decide)
      cases rest with
      | nil => rfl
      | cons second rest => simp [isPadded, bare, notFull]
    next large => simp [isPadded, large]

/-! ### Integers -/

/-- A short length is one byte. -/
theorem decodeLength?_of_short {length : Nat} (short : length < 128) (behind : Bytes) :
    decodeLength? (UInt8.ofNat length :: behind) = some (length, behind) := by
  have value : (UInt8.ofNat length).toNat = length :=
    UInt8.toNat_ofNat_of_lt' (Nat.lt_trans short (by decide))
  have low : UInt8.ofNat length < 0x80 := by
    rw [UInt8.lt_iff_toNat_lt, value]
    exact short
  rw [decodeLength?, if_pos low, value]

theorem scalar_integerContent (small : number < order) : scalar (integerContent number) = number := by
  obtain ⟨first, rest, content, low⟩ := exists_integerContent number
  have inRange : ¬ (0x80 ≤ (integerContent number).headD 0 ∨ order ≤ number) := by
    rw [content]
    exact not_or.mpr ⟨UInt8.not_le.mpr low, Nat.not_le.mpr small⟩
  rw [scalar, decode_integerContent, if_neg inRange]

/-- **An integer is read back**, whatever stands behind it. -/
theorem decodeInteger?_encodeInteger (small : number < order) (behind : Bytes) :
    decodeInteger? (encodeInteger number ++ behind) = some (number, behind) := by
  have short := length_integerContent_le small
  have nonempty : (integerContent number).length ≠ 0 := by
    obtain ⟨first, rest, content, -⟩ := exists_integerContent number
    rw [content]
    exact Nat.succ_ne_zero _
  show decodeInteger? (0x02 :: UInt8.ofNat (integerContent number).length ::
    (integerContent number ++ behind)) = _
  rw [decodeInteger?, decodeLength?_of_short (by omega)]
  show (if (integerContent number).length = 0 ∨
      (integerContent number ++ behind).length < (integerContent number).length ∨
      isPadded ((integerContent number ++ behind).take (integerContent number).length) then none
    else _) = _
  rw [List.take_left, List.drop_left, isPadded_integerContent, scalar_integerContent small, if_neg]
  rw [List.length_append]
  simp [nonempty]

/-! ### Signatures -/

/-- **A signature of scalars is read back.** -/
theorem decode?_encode (reduced : signature.Reduced) : decode? (encode signature) = some signature := by
  have r := length_integerContent_le reduced.r_lt
  have s := length_integerContent_le reduced.s_lt
  have short : (encodeInteger signature.r ++ encodeInteger signature.s).length < 128 := by
    simp only [encodeInteger, List.length_append, List.length_cons]
    omega
  have last := decodeInteger?_encodeInteger reduced.s_lt []
  rw [List.append_nil] at last
  rw [encode, decode?, decodeLength?_of_short short]
  show (if _ then none else _) = _
  rw [if_neg (not_not_intro rfl), decodeInteger?_encodeInteger reduced.r_lt]
  show (decodeInteger? (encodeInteger signature.s) >>= _) = _
  rw [last]
  rfl

/-- No two signatures of scalars share their bytes. -/
theorem encode_inj {other : Signature} (reduced : signature.Reduced) (also : other.Reduced)
    (same : encode signature = encode other) : signature = other := by
  have read := decode?_encode reduced
  rw [same, decode?_encode also] at read
  exact (Option.some.inj read).symm

end Utxo.Der
