/-
**Paying to the digest of a public key.**

* `PayToKeyHash.locking`: only a public key with that digest, and a signature by it, unlock this.
* `PayToKeyHash.unlocking`: the signature and the key.
-/

import Utxo.Script.Program

namespace Utxo.PayToKeyHash

/-- The program that guards an output. -/
def locking (keyHash : PubKeyHash) : Program :=
  [.control .duplicate, .control .hash160, .push .publicKeyHash keyHash.toBytes,
    .control .equalVerify, .control .checkSig]

/-- The program that spends it. -/
def unlocking (signature publicKey : Bytes) : Program :=
  [.push .signature signature, .push .publicKey publicKey]

end Utxo.PayToKeyHash
