/-
**How the bytes of keys and signatures fail to denote any.**

* `SignatureFault`: a key of another length than the compressed form has, a key that is no point, or
  a signature that is no pair of integers. A well-formed signature that does not verify is none of
  these.
-/

import Utxo.Curve.Point

namespace Utxo

/-- The length of a compressed public key. -/
abbrev publicKeyLength : Nat := Point.compressedLength

/-- Key or signature bytes that denote no key or no signature. -/
inductive SignatureFault
  | keyLength (length : Nat)
  | malformedKey
  | malformedSignature
deriving DecidableEq, Repr

/-- What a caller is told. -/
def SignatureFault.message : SignatureFault → String
  | .keyLength length =>
    s!"Public key parse failed: expected {publicKeyLength} byte compressed key, got {length} bytes"
  | .malformedKey => "Public key parse failed: malformed public key"
  | .malformedSignature => "Signature parse failed: malformed signature"

end Utxo
