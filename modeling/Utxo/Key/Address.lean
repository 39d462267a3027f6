/-
**Addresses: a version byte and a public key's digest as base-58 text.**

Four bytes of a double digest stand behind the payload, so that a mistyped address is noticed.

* `Address`: version and digest. `Address.toBytes` is the payload and its checksum, `Address.encode`
  the text.
* `Address.ofBytes` and `Address.decode` read them back; `Address.Fault` tells why something is no
  address: a wrong character first, then the length, then the checksum.
-/

import Utxo.Hash.Digest
import Utxo.Text.Base58

namespace Utxo

/-- Where to pay: an address version and the digest of the public key. -/
structure Address where
  version : UInt8
  keyHash : PubKeyHash
deriving DecidableEq

namespace Address

/-- The payload and its checksum: 1 + 20 + 4 bytes. -/
def byteLength : Nat := 25

/-- Why a text is no address. -/
inductive Fault
  | base58 (fault : Base58.Fault)
  | wrongLength (length : Nat)
  | checksum
deriving DecidableEq, Repr

/-- What a caller is told. -/
def Fault.message : Fault → String
  | .base58 fault => fault.message
  | .wrongLength length => s!"expected {byteLength} bytes, got {length}"
  | .checksum => "checksum mismatch"

/-- The first four bytes of the double digest. -/
def checksum (payload : Bytes) : Bytes := (doubleSha256 payload).toBytes.take 4

/-- Version byte and digest. -/
def payload (address : Address) : Bytes := address.version :: address.keyHash.toBytes

/-- The payload with its checksum behind it. -/
def toBytes (address : Address) : FixedBytes byteLength :=
  ⟨address.payload ++ checksum address.payload, by simp [payload, checksum, byteLength]⟩

/-- The address as text. -/
def encode (address : Address) : String := Base58.encode address.toBytes.toBytes

/-- The address whose bytes these are. -/
def ofBytes (bytes : Bytes) : Except Fault Address :=
  if fits : bytes.length = byteLength then
    let address : Address :=
      ⟨bytes.headD 0, ⟨(bytes.drop 1).take 20, by simp [fits, byteLength]⟩⟩
    if address.toBytes.toBytes = bytes then .ok address else .error .checksum
  else .error (.wrongLength bytes.length)

/-- The address that a text denotes. -/
def decode (text : String) : Except Fault Address :=
  match Base58.decode text with
  | .ok bytes => ofBytes bytes
  | .error fault => .error (.base58 fault)

end Address

end Utxo
