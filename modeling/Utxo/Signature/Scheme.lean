/-
**What scripts and keys need of signatures.**

* `SignatureScheme`: derives public keys, signs digests and verifies. Scripts, keys and spending
  are written over any scheme; `Signature.Ecdsa` holds the one that runs.
-/

import Utxo.Key.Secret

namespace Utxo

/-- A way to sign digests. Signing is a function: a key and a digest have one signature. -/
class SignatureScheme where
  publicKey : SecretKey → FixedBytes publicKeyLength
  sign : SecretKey → Hash → Bytes
  verify : (key signature : Bytes) → Hash → Except SignatureFault Bool

end Utxo
