/-
**Byte strings as digits in base 256.**

* `Bytes.map_ofNat_map_toNat`, `Bytes.map_toNat_map_ofNat`: bytes stand one to one for the digits.
* `BigEndian.decode_eq_value`: the number in big-endian bytes is the one that the digits denote.
-/

import Utxo.Bytes.BigEndian
import Utxo.Proofs.Numeral.Radix

namespace Utxo

namespace Bytes

/-- The byte values are digits in base 256. -/
theorem toNat_lt_of_mem_map {bytes : Bytes} : ∀ value ∈ bytes.map UInt8.toNat, value < 256 := by
  intro value member
  obtain ⟨byte, -, rfl⟩ := List.mem_map.mp member
  exact byte.toNat_lt

theorem map_ofNat_map_toNat (bytes : Bytes) : (bytes.map UInt8.toNat).map UInt8.ofNat = bytes := by
  rw [List.map_map]
  exact (List.map_congr_left fun byte _ => UInt8.ofNat_toNat).trans (List.map_id bytes)

theorem map_toNat_map_ofNat {values : List Nat} (small : ∀ value ∈ values, value < 256) :
    (values.map UInt8.ofNat).map UInt8.toNat = values := by
  rw [List.map_map]
  refine (List.map_congr_left fun value member => ?_).trans (List.map_id values)
  exact UInt8.toNat_ofNat_of_lt' (small value member)

end Bytes

theorem LittleEndian.decode_eq_ofDigits (bytes : Bytes) :
    decode bytes = Nat.ofDigits 256 (bytes.map UInt8.toNat) := by
  induction bytes with
  | nil => rfl
  | cons byte rest ih => rw [decode, ih, List.map_cons, Nat.ofDigits_cons]

/-- **The number in big-endian bytes is the one that they denote as digits.** -/
theorem BigEndian.decode_eq_value (bytes : Bytes) :
    decode bytes = Radix.value 256 (bytes.map UInt8.toNat) := by
  rw [decode, LittleEndian.decode_eq_ofDigits, Radix.value_eq_ofDigits, List.map_reverse]

end Utxo
