/-
**Integers as bytes, most significant byte first.**

* `BigEndian.encode width value` and `BigEndian.decode`: the little-endian forms, reversed, so that
  both round trips carry over.
-/

import Utxo.Bytes.LittleEndian

namespace Utxo.BigEndian

/-- The `width` low bytes of `value`. -/
def encode (width value : Nat) : Bytes := (LittleEndian.encode width value).reverse

/-- The number whose base-256 digits are the bytes. -/
def decode (bytes : Bytes) : Nat := LittleEndian.decode bytes.reverse

@[simp] theorem length_encode (width value : Nat) : (encode width value).length = width := by
  simp [encode]

theorem decode_lt (bytes : Bytes) : decode bytes < Nat.pow 256 bytes.length := by
  simpa [decode] using LittleEndian.decode_lt bytes.reverse

/-- A number that fits the width is read back. -/
theorem decode_encode {width value : Nat} (fits : value < Nat.pow 256 width) :
    decode (encode width value) = value := by
  simp [decode, encode, LittleEndian.decode_encode fits]

/-- A byte string is the encoding of the number that it holds. -/
theorem encode_decode (bytes : Bytes) : encode bytes.length (decode bytes) = bytes := by
  have back := LittleEndian.encode_decode bytes.reverse
  rw [List.length_reverse] at back
  rw [encode, decode, back, List.reverse_reverse]

/-- A number of `width` bytes, in that many bytes. -/
def fixed (width value : Nat) : FixedBytes width := ⟨encode width value, length_encode ..⟩

end Utxo.BigEndian
