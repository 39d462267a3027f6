/-
**The digests that identify things on the ledger.**

* `sha256`: the digest that is signed.
* `doubleSha256`: the identifier of a header, a transaction or a block.
* `doubleSha256Pair`: an inner node of a Merkle tree.
* `hash160`: the short digest of a public key.
-/

import Utxo.Hash.Sha256
import Utxo.Hash.Ripemd160
import Utxo.Text.Hex

namespace Utxo

/-- A digest of 32 bytes. -/
abbrev Hash := FixedBytes 32

/-- A public key's digest of 20 bytes. -/
abbrev PubKeyHash := FixedBytes 20

/-- SHA-256, once. -/
def sha256 (message : Bytes) : Hash := Sha256.hash message

/-- SHA-256 of the SHA-256. -/
def doubleSha256 (message : Bytes) : Hash := sha256 (sha256 message).toBytes

/-- The double digest of two digests, one behind the other. -/
def doubleSha256Pair (left right : Hash) : Hash := doubleSha256 (left.toBytes ++ right.toBytes)

/-- RIPEMD-160 of the SHA-256. -/
def hash160 (message : Bytes) : PubKeyHash := Ripemd160.hash (sha256 message).toBytes

/-- The digest that 64 hexadecimal digits denote. -/
def Hash.ofHex (text : String) : Except Hex.Fault Hash := Hex.decodeFixed 32 text

/-- The digest as 64 lowercase digits, first byte first. -/
def Hash.toHex (hash : Hash) : String := Hex.encode hash.toBytes

end Utxo
