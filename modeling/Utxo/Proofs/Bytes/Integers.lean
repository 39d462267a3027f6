/-
**The integers of the wire format stand one to one for byte strings of their width.**

* `toUInt32_fixed`, `fixed_toUInt32` and their kin: a written integer is read back, and the bytes that
  were read are the ones that are written again.
* `toNat_toUInt64_of_nonneg`: an integer that is not negative has the bytes of the natural number that
  it is, so that counts are written in the form in which they are read.
-/

import Utxo.Bytes.LittleEndian

namespace Utxo.LittleEndian

/-- The bytes of a number, with their length. -/
def fixed (width value : Nat) : FixedBytes width := ⟨encode width value, length_encode ..⟩

theorem decode_fixed {width value : Nat} (fits : value < Nat.pow 256 width) :
    decode (fixed width value).toBytes = value := decode_encode fits

/-- Bytes are the ones of the number that they hold. -/
theorem fixed_decode {width : Nat} (bytes : FixedBytes width) :
    fixed width (decode bytes.toBytes) = bytes := by
  apply FixedBytes.ext
  have back := encode_decode bytes.toBytes
  rw [bytes.length_toBytes] at back
  exact back

theorem decode_toBytes_lt {width : Nat} (bytes : FixedBytes width) :
    decode bytes.toBytes < Nat.pow 256 width := by
  have small := decode_lt bytes.toBytes
  rwa [bytes.length_toBytes] at small

/-! ### One, four and eight bytes -/

theorem toUInt8_fixed (value : UInt8) : toUInt8 (fixed 1 value.toNat) = value := by
  rw [toUInt8, decode_fixed value.toNat_lt, UInt8.ofNat_toNat]

theorem fixed_toUInt8 (bytes : FixedBytes 1) : fixed 1 (toUInt8 bytes).toNat = bytes := by
  have small : decode bytes.toBytes < UInt8.size := decode_toBytes_lt bytes
  rw [toUInt8, UInt8.toNat_ofNat_of_lt' small, fixed_decode]

theorem toUInt32_fixed (value : UInt32) : toUInt32 (fixed 4 value.toNat) = value := by
  rw [toUInt32, decode_fixed value.toNat_lt, UInt32.ofNat_toNat]

theorem fixed_toUInt32 (bytes : FixedBytes 4) : fixed 4 (toUInt32 bytes).toNat = bytes := by
  have small : decode bytes.toBytes < UInt32.size := decode_toBytes_lt bytes
  rw [toUInt32, UInt32.toNat_ofNat_of_lt' small, fixed_decode]

theorem toInt32_fixed (value : Int32) : toInt32 (fixed 4 value.toUInt32.toNat) = value := by
  rw [toInt32, toUInt32_fixed, Int32.toInt32_toUInt32]

theorem fixed_toInt32 (bytes : FixedBytes 4) : fixed 4 (toInt32 bytes).toUInt32.toNat = bytes := by
  rw [toInt32, UInt32.toUInt32_toInt32, fixed_toUInt32]

theorem toInt64_fixed (value : Int64) : toInt64 (fixed 8 value.toUInt64.toNat) = value := by
  rw [toInt64, decode_fixed value.toUInt64.toNat_lt, UInt64.ofNat_toNat, Int64.toInt64_toUInt64]

theorem fixed_toInt64 (bytes : FixedBytes 8) : fixed 8 (toInt64 bytes).toUInt64.toNat = bytes := by
  have small : decode bytes.toBytes < UInt64.size := decode_toBytes_lt bytes
  rw [toInt64, UInt64.toUInt64_toInt64, UInt64.toNat_ofNat_of_lt' small, fixed_decode]

/-! ### Counts -/

/-- An integer that is not negative is stored as the natural number that it is. -/
theorem toNat_toUInt64_of_nonneg {value : Int64} (nonneg : ¬ value < 0) :
    value.toUInt64.toNat = value.toInt.toNat :=
  Int64.toNat_toUInt64_of_le (Int64.not_lt.mp nonneg)

theorem toInt_toNat_lt (value : Int64) : value.toInt.toNat < Nat.pow 2 63 :=
  value.toNatClampNeg_lt

/-- A number below half of the range is an integer that is not negative. -/
theorem toInt_ofNat_toNat {number : Nat} (small : number < Nat.pow 2 63) :
    ¬ Int64.ofNat number < 0 ∧ (Int64.ofNat number).toInt.toNat = number := by
  have value : (Int64.ofNat number).toInt = number := Int64.toInt_ofNat_of_lt small
  refine ⟨?_, by rw [value, Int.toNat_natCast]⟩
  rw [Int64.lt_iff_toInt_lt, value]
  exact Int.not_lt.mpr (Int.natCast_nonneg number)

end Utxo.LittleEndian
