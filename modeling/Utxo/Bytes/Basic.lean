/-
**Byte strings, with and without a length in their type.**

* `Bytes`: any byte string.
* `FixedBytes n`: exactly `n` bytes, the shape of digests and key material; `FixedBytes.ofBytes?`
  takes a byte string of that length and no other.
* `VarBytes`: at most 255 bytes, so that one byte can tell its length; `VarBytes.ofBytes` refuses a
  longer string and names its length.
-/

namespace Utxo

/-- A byte string, first byte first. -/
abbrev Bytes := List UInt8

/-- A byte string of `n` bytes. -/
structure FixedBytes (n : Nat) where
  toBytes : Bytes
  length_eq : toBytes.length = n
deriving DecidableEq

namespace FixedBytes

variable {n : Nat}

/-- Two strings of one length are equal when their bytes are. -/
@[ext] theorem ext {first second : FixedBytes n} (same : first.toBytes = second.toBytes) :
    first = second := by
  cases first
  cases second
  simp_all

@[simp] theorem length_toBytes (value : FixedBytes n) : value.toBytes.length = n :=
  value.length_eq

/-- The string as one of `n` bytes, if that is its length. -/
def ofBytes? (bytes : Bytes) : Option (FixedBytes n) :=
  if fits : bytes.length = n then some ⟨bytes, fits⟩ else none

/-- `n` zero bytes. -/
def zero (n : Nat) : FixedBytes n := ⟨List.replicate n 0, by simp⟩

instance : Inhabited (FixedBytes n) := ⟨zero n⟩

@[simp] theorem ofBytes?_toBytes (value : FixedBytes n) : ofBytes? value.toBytes = some value := by
  simp [ofBytes?]

theorem ofBytes?_eq_some_iff {bytes : Bytes} {value : FixedBytes n} :
    ofBytes? bytes = some value ↔ bytes = value.toBytes := by
  constructor
  · intro found
    unfold ofBytes? at found
    split at found
    · cases found
      rfl
    · cases found
  · rintro rfl
    exact ofBytes?_toBytes value

end FixedBytes

/-- The longest field that a one-byte length can announce. -/
def maxVarBytes : Nat := 255

/-- No byte announces more than that. -/
theorem FixedBytes.length_le_maxVarBytes {announced : UInt8} (field : FixedBytes announced.toNat) :
    field.toBytes.length ≤ maxVarBytes := by
  have small := announced.toNat_lt
  rw [field.length_toBytes, maxVarBytes]
  omega

/-- A field of more than `maxVarBytes` bytes, by its length. -/
structure FieldTooLong where
  length : Nat
deriving DecidableEq, Repr

/-- What a reader is told about a field that is too long. -/
def FieldTooLong.message (fault : FieldTooLong) : String :=
  s!"Variable-length field of {fault.length} bytes exceeds maximum of {maxVarBytes}"

/-- A byte string of at most `maxVarBytes` bytes. -/
structure VarBytes where
  toBytes : Bytes
  length_le : toBytes.length ≤ maxVarBytes
deriving DecidableEq

namespace VarBytes

@[ext] theorem ext {first second : VarBytes} (same : first.toBytes = second.toBytes) :
    first = second := by
  cases first
  cases second
  simp_all

/-- The string as a length-limited field. -/
def ofBytes (bytes : Bytes) : Except FieldTooLong VarBytes :=
  if fits : bytes.length ≤ maxVarBytes then .ok ⟨bytes, fits⟩ else .error ⟨bytes.length⟩

/-- The field of no bytes. -/
def empty : VarBytes := ⟨[], by decide⟩

instance : Inhabited VarBytes := ⟨empty⟩

/-- The number of bytes. -/
def length (field : VarBytes) : Nat := field.toBytes.length

/-- The number of bytes, as the byte that announces it. -/
def lengthByte (field : VarBytes) : UInt8 := UInt8.ofNat field.length

/-- Whether the field holds no byte. -/
def isEmpty (field : VarBytes) : Bool := field.toBytes.isEmpty

@[simp] theorem ofBytes_toBytes (field : VarBytes) : ofBytes field.toBytes = .ok field := by
  simp [ofBytes, field.length_le]

/-- The announcing byte counts the field exactly. -/
theorem toNat_lengthByte (field : VarBytes) : field.lengthByte.toNat = field.length := by
  have bound := field.length_le
  simp only [maxVarBytes] at bound
  simp only [lengthByte, length, UInt8.toNat_ofNat']
  omega

end VarBytes

end Utxo
