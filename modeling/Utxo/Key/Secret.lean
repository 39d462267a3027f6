/-
**Secret keys: the numbers from 1 up to the order of the curve's generator.**

* `SecretKey.ofBytes?` takes 32 bytes, most significant first, that hold such a number;
  `SecretKey.toBytes` writes it.
* `SecretKey.ofHex` and `SecretKey.toHex`: the same as text.
* `SecretKey.fromEntropy?`: the first usable one among random draws.
-/

import Utxo.Curve.Point
import Utxo.Error

namespace Utxo

/-- A secret key. -/
structure SecretKey where
  value : Nat
  pos : 0 < value
  lt_order : value < Curve.order
deriving DecidableEq

namespace SecretKey

@[ext] theorem ext {first second : SecretKey} (same : first.value = second.value) :
    first = second := by
  cases first
  cases second
  simp_all

/-- The key of a number in range. -/
def ofNat? (value : Nat) : Option SecretKey :=
  if range : 0 < value ∧ value < Curve.order then some ⟨value, range.1, range.2⟩ else none

/-- The key in 32 bytes. -/
def ofBytes? (bytes : Bytes) : Option SecretKey :=
  if bytes.length = 32 then ofNat? (BigEndian.decode bytes) else none

/-- The number in 32 bytes. -/
def toBytes (key : SecretKey) : FixedBytes 32 := BigEndian.fixed 32 key.value

/-- The 32 bytes of a key hold that key. -/
theorem ofBytes?_toBytes (key : SecretKey) : ofBytes? key.toBytes.toBytes = some key := by
  have fits : key.value < Nat.pow 256 32 := Nat.lt_trans key.lt_order (by decide)
  have back : BigEndian.decode key.toBytes.toBytes = key.value := BigEndian.decode_encode fits
  simp [ofBytes?, ofNat?, back, key.pos, key.lt_order]

/-- The key in 32 bytes, or the error that they hold none. -/
def ofBytes (bytes : Bytes) : Except Error SecretKey :=
  match ofBytes? bytes with
  | some key => .ok key
  | none => .error .invalidPrivateKey

/-- The key that a hexadecimal text denotes. -/
def ofHex (text : String) : Except Error SecretKey :=
  match Hex.decode text with
  | .ok bytes => ofBytes bytes
  | .error fault => .error (.hex fault)

/-- The key as 64 lowercase digits. -/
def toHex (key : SecretKey) : String := Hex.encode key.toBytes.toBytes

/-- The first draw that is a key. -/
def fromEntropy? (draws : List Bytes) : Option SecretKey := draws.findSome? ofBytes?

end SecretKey

end Utxo
