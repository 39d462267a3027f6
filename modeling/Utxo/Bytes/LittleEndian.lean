/-
**Integers as bytes, least significant byte first.**

* `LittleEndian.encode width value`: the `width` low bytes of a number; `LittleEndian.decode` reads
  them back.
* `decode_encode`: a number that fits its width survives; `encode_decode`: so does every byte string.
* `ofInt32`, `toInt32` and their kin for the integer types of the wire format; a negative number is
  written as its two's complement.
-/

import Utxo.Bytes.Basic

namespace Utxo.LittleEndian

/-- The `width` low bytes of `value`. -/
def encode : Nat → Nat → Bytes
  | 0, _ => []
  | width + 1, value => UInt8.ofNat value :: encode width (value / 256)

/-- The number whose base-256 digits are the bytes. -/
def decode : Bytes → Nat
  | [] => 0
  | byte :: rest => byte.toNat + 256 * decode rest

@[simp] theorem length_encode (width value : Nat) : (encode width value).length = width := by
  induction width generalizing value with
  | zero => rfl
  | succ width ih => simp [encode, ih]

theorem decode_lt (bytes : Bytes) : decode bytes < Nat.pow 256 bytes.length := by
  induction bytes with
  | nil => simp [decode]
  | cons byte rest ih =>
    have small := byte.toNat_lt
    simp only [decode, List.length_cons, Nat.pow, Nat.mul_eq]
    omega

/-- A number that fits the width is read back. -/
theorem decode_encode {width value : Nat} (fits : value < Nat.pow 256 width) :
    decode (encode width value) = value := by
  induction width generalizing value with
  | zero =>
    simp only [Nat.pow] at fits
    simp [encode, decode]
    omega
  | succ width ih =>
    have quotient : value / 256 < Nat.pow 256 width := by
      simp only [Nat.pow, Nat.mul_eq] at fits
      omega
    simp only [encode, decode, ih quotient, UInt8.toNat_ofNat']
    omega

/-- A byte string is the encoding of the number that it holds. -/
theorem encode_decode (bytes : Bytes) : encode bytes.length (decode bytes) = bytes := by
  induction bytes with
  | nil => rfl
  | cons byte rest ih =>
    have small := byte.toNat_lt
    have quotient : (byte.toNat + 256 * decode rest) / 256 = decode rest := by omega
    have low : UInt8.ofNat (byte.toNat + 256 * decode rest) = byte := by
      apply UInt8.toNat_inj.mp
      simp only [UInt8.toNat_ofNat']
      omega
    simp [encode, decode, quotient, low, ih]

/-! ### The integer types of the wire format -/

/-- Four bytes. -/
def ofUInt32 (value : UInt32) : Bytes := encode 4 value.toNat

/-- Four bytes, two's complement. -/
def ofInt32 (value : Int32) : Bytes := ofUInt32 value.toUInt32

/-- Eight bytes, two's complement. -/
def ofInt64 (value : Int64) : Bytes := encode 8 value.toUInt64.toNat

/-- The unsigned number in one byte. -/
def toUInt8 (bytes : FixedBytes 1) : UInt8 := UInt8.ofNat (decode bytes.toBytes)

/-- The unsigned number in four bytes. -/
def toUInt32 (bytes : FixedBytes 4) : UInt32 := UInt32.ofNat (decode bytes.toBytes)

/-- The signed number in four bytes. -/
def toInt32 (bytes : FixedBytes 4) : Int32 := (toUInt32 bytes).toInt32

/-- The signed number in eight bytes. -/
def toInt64 (bytes : FixedBytes 8) : Int64 := (UInt64.ofNat (decode bytes.toBytes)).toInt64

@[simp] theorem length_ofUInt32 (value : UInt32) : (ofUInt32 value).length = 4 := length_encode ..

@[simp] theorem length_ofInt32 (value : Int32) : (ofInt32 value).length = 4 := length_encode ..

@[simp] theorem length_ofInt64 (value : Int64) : (ofInt64 value).length = 8 := length_encode ..

end Utxo.LittleEndian
