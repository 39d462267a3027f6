/-
**Elliptic-curve signatures over `secp256k1`.**

* `Ecdsa.sign`: nonces drawn from key and digest, `s` in the lower half of its range.
* `Ecdsa.verifies`: the equation, for a parsed key and signature.
* `Ecdsa.verify`: the same for bytes. The key's length is looked at first, then the key, then the
  signature; an `s` in the upper half is brought to the lower one before it is used.
* `secp256k1`: the scheme made of these.
-/

import Utxo.Signature.Der
import Utxo.Signature.Nonce
import Utxo.Signature.Scheme

namespace Utxo

open Curve

/-- The signature with `s` in the lower half of its range. -/
def Signature.normalize (signature : Signature) : Signature :=
  if order / 2 < signature.s then ⟨signature.r, order - signature.s⟩ else signature

namespace Ecdsa

/-- The number that a digest stands for. -/
def message (digest : Hash) : Nat := BigEndian.decode digest.toBytes % order

/-- The public key of a secret key: a multiple of the generator, which is never infinity. -/
def publicKey (secret : SecretKey) : FixedBytes publicKeyLength :=
  match (Jacobian.multiply secret.value (.ofPoint .generator)).toPoint? with
  | some point => point.compress
  | none => FixedBytes.zero _

/-- The signature with a given nonce, if the nonce can be used. -/
def signWith? (secret : SecretKey) (digest : Hash) (nonce : Nat) : Option Signature := do
  if nonce = 0 ∨ order ≤ nonce then none
  else
    let point ← (Jacobian.multiply nonce (.ofPoint .generator)).toPoint?
    let r := point.x % order
    let s := Modular.inverse order nonce * (message digest + r * secret.value) % order
    if r = 0 ∨ s = 0 then none else some (Signature.normalize ⟨r, s⟩)

/-- How many candidates are tried. Each works but for a chance of one in `2 ^ 127`. -/
def attempts : Nat := 256

/-- The signature of a digest. Should every candidate fail, it is one that verifies nothing. -/
def sign (secret : SecretKey) (digest : Hash) : Signature :=
  (Nonce.first? (signWith? secret digest) attempts (Nonce.start secret digest)).getD ⟨0, 0⟩

/-- Whether the signature is one of the digest by the key. -/
def verifies (key : Point) (signature : Signature) (digest : Hash) : Bool :=
  if signature.r = 0 ∨ signature.s = 0 then false
  else
    let inverse := Modular.inverse order signature.s
    let ofGenerator := Jacobian.multiply (message digest * inverse % order) (.ofPoint .generator)
    let ofKey := Jacobian.multiply (signature.r * inverse % order) (.ofPoint key)
    match (ofGenerator.add ofKey).toPoint? with
    | some point => point.x % order == signature.r
    | none => false

/-- The public key in 33 bytes. -/
def parseKey (bytes : Bytes) : Except SignatureFault Point :=
  if bytes.length ≠ publicKeyLength then .error (.keyLength bytes.length)
  else match Point.ofCompressed? bytes with
    | some point => .ok point
    | none => .error .malformedKey

/-- The signature in a byte string. -/
def parseSignature (bytes : Bytes) : Except SignatureFault Signature :=
  match Der.decode? bytes with
  | some signature => .ok signature
  | none => .error .malformedSignature

/-- Whether the bytes of a signature are one of the digest by the key in `key`. -/
def verify (key signature : Bytes) (digest : Hash) : Except SignatureFault Bool := do
  let key ← parseKey key
  let signature ← parseSignature signature
  return verifies key signature.normalize digest

end Ecdsa

/-- The scheme of the ledger. -/
instance secp256k1 : SignatureScheme where
  publicKey := Ecdsa.publicKey
  sign secret digest := Der.encode (Ecdsa.sign secret digest)
  verify := Ecdsa.verify

end Utxo
