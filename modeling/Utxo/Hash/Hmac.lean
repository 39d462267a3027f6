/-
**Keyed digests: HMAC over SHA-256.**

* `Hmac.sha256 key message`: the key, brought to one block, masks an inner digest of the message and
  an outer digest of that.
-/

import Utxo.Hash.Sha256

namespace Utxo.Hmac

/-- The key as one block of 64 bytes: digested first if it is longer, then padded with zeros. -/
def blockKey (key : Bytes) : Bytes :=
  let short := if 64 < key.length then (Sha256.hash key).toBytes else key
  short ++ List.replicate (64 - short.length) 0

/-- The keyed digest of a message. -/
def sha256 (key message : Bytes) : FixedBytes 32 :=
  let block := blockKey key
  let inner := Sha256.hash (block.map (· ^^^ 0x36) ++ message)
  Sha256.hash (block.map (· ^^^ 0x5c) ++ inner.toBytes)

end Utxo.Hmac
