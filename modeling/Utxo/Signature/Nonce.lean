/-
**The secret numbers of signatures, drawn from the key and the digest alone.**

A generator keyed with the secret key and the digest (reduced modulo the curve's order) yields one
candidate after another; signing takes the first that works. So a key and a digest have one
signature, and no randomness can fail it.

* `Nonce.start`, `Nonce.draw`, `Nonce.refuse`: the generator.
* `Nonce.first?`: the first candidate that a partial function accepts.
-/

import Utxo.Hash.Hmac
import Utxo.Key.Secret

namespace Utxo

/-- The state of the generator. -/
structure Nonce where
  key : Bytes
  value : Bytes

namespace Nonce

/-- Mixes bytes into the state. -/
def stir (state : Nonce) (input : Bytes) : Nonce :=
  let key := (Hmac.sha256 state.key (state.value ++ input)).toBytes
  ⟨key, (Hmac.sha256 key state.value).toBytes⟩

/-- The generator of a key and a digest. -/
def start (secret : SecretKey) (digest : Hash) : Nonce :=
  let message := BigEndian.encode 32 (BigEndian.decode digest.toBytes % Curve.order)
  let seed := secret.toBytes.toBytes ++ message
  let blank : Nonce := ⟨List.replicate 32 0, List.replicate 32 1⟩
  (blank.stir (0 :: seed)).stir (1 :: seed)

/-- The next candidate stands in the value. -/
def draw (state : Nonce) : Nonce := ⟨state.key, (Hmac.sha256 state.key state.value).toBytes⟩

/-- The state behind a candidate that was refused. -/
def refuse (state : Nonce) : Nonce := state.stir [0]

/-- What the first accepted one of `attempts` candidates yields. -/
def first? {α : Type} (accept : Nat → Option α) : (attempts : Nat) → Nonce → Option α
  | 0, _ => none
  | attempts + 1, state =>
    let drawn := state.draw
    match accept (BigEndian.decode drawn.value) with
    | some result => some result
    | none => first? accept attempts drawn.refuse

end Nonce

end Utxo
