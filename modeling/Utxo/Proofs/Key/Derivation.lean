/-
**All that a key keeps fits together.**

The fields of a key can be set one by one, so that one of them may be left over from another key. No function
that makes a key leaves one over.

* `Key.Consistent`: each kept field is what those before it determine. `Key.consistent_iff`: these are the
  keys that are derived.
* `Key.consistent_withVersion`, `consistent_of_ofBytes` up to `consistent_of_generate?`: every key that is
  made is one of them, whatever it was made of.
* `Key.not_consistent_of_stale`: a key with the address of another version is none.
-/

import Utxo.Key.Basic
import Utxo.Proofs.Key.Address

namespace Utxo.Key

variable [SignatureScheme] {key : Key}

/-- **Every kept field is what those before it determine**: the public key is that of the secret key, its
digest is kept with it, and the address of this digest is kept as bytes and as text. -/
structure Consistent (key : Key) : Prop where
  publicKey : key.publicKey = SignatureScheme.publicKey key.secret
  publicKeyHash : key.publicKeyHash = hash160 key.publicKey.toBytes
  addressBytes : key.addressBytes = key.address.toBytes
  addressText : key.addressText = key.address.encode

/-! ### Keys that are derived -/

/-- A derived address begins with its version. -/
theorem version_derive (secret : SecretKey) (version : UInt8) : (derive secret version).version = version :=
  rfl

theorem address_derive (secret : SecretKey) (version : UInt8) :
    (derive secret version).address = ⟨version, (derive secret version).publicKeyHash⟩ := by
  rw [address, version_derive]

theorem consistent_derive (secret : SecretKey) (version : UInt8) : (derive secret version).Consistent where
  publicKey := rfl
  publicKeyHash := rfl
  addressBytes := by
    rw [address_derive]
    rfl
  addressText := by
    rw [address_derive]
    rfl

/-- **The keys that are consistent are those that are derived.** -/
theorem consistent_iff : key.Consistent ↔ key = derive key.secret key.version := by
  refine ⟨fun consistent => ?_, fun derived => ?_⟩
  · have hash : key.publicKeyHash = hash160 (SignatureScheme.publicKey key.secret).toBytes := by
      rw [consistent.publicKeyHash, consistent.publicKey]
    have address : key.address = (derive key.secret key.version).address :=
      congrArg (Address.mk key.version) hash
    ext1
    · rfl
    · exact consistent.publicKey
    · exact hash
    · rw [consistent.addressBytes, address, ← (consistent_derive _ _).addressBytes]
    · rw [consistent.addressText, address, ← (consistent_derive _ _).addressText]
  · rw [derived]
    exact consistent_derive _ _

/-! ### Keys that are made -/

theorem consistent_ofSecret (secret : SecretKey) : (ofSecret secret).Consistent :=
  consistent_derive secret defaultAddressVersion

/-- All that is kept is derived again, be it consistent or not. -/
theorem consistent_withVersion (key : Key) (version : UInt8) : (key.withVersion version).Consistent :=
  consistent_derive key.secret version

theorem consistent_of_ofBytes {bytes : Bytes} (read : ofBytes bytes = .ok key) : key.Consistent := by
  obtain ⟨secret, -, rfl⟩ := exceptMap_eq_ok_iff.mp read
  exact consistent_ofSecret secret

theorem consistent_of_ofHex {text : String} (read : ofHex text = .ok key) : key.Consistent := by
  obtain ⟨secret, -, rfl⟩ := exceptMap_eq_ok_iff.mp read
  exact consistent_ofSecret secret

theorem consistent_of_generate? {draws : List Bytes} (made : generate? draws = some key) :
    key.Consistent := by
  obtain ⟨secret, -, rfl⟩ := Option.map_eq_some_iff.mp made
  exact consistent_ofSecret secret

/-- **A field that is left over shows**: with the text of another address, a key is not consistent. -/
theorem not_consistent_of_stale {version : UInt8} (consistent : key.Consistent)
    (differ : version ≠ key.version) :
    ¬ Consistent { key.withVersion version with addressText := key.addressText } := by
  intro stale
  have text : key.addressText = (key.withVersion version).address.encode := stale.addressText
  rw [consistent.addressText] at text
  have same : key.version = (key.withVersion version).version :=
    congrArg Address.version (Address.encode_inj text)
  exact differ same.symm

end Utxo.Key
