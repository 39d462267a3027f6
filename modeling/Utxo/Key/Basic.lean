/-
**Keys: a secret key with everything that was derived from it.**

A key keeps its public key, the digest of this one, and its address as bytes and as text; nothing is
computed again when it is asked for.

* `Key.derive`: what is kept, from the secret key and the version of its address. `Key.withVersion`
  derives all of it again.
* `Key.ofSecret`, `Key.ofBytes`, `Key.ofHex`, `Key.generate?`: keys under the default version.
-/

import Utxo.Signature.Scheme

namespace Utxo

/-- A secret key, and what was derived from it. -/
@[ext] structure Key where
  secret : SecretKey
  publicKey : FixedBytes publicKeyLength
  publicKeyHash : PubKeyHash
  addressBytes : FixedBytes Address.byteLength
  addressText : String
deriving DecidableEq

namespace Key

/-- The secret key as text. -/
def secretHex (key : Key) : String := key.secret.toHex

/-- The version that the kept address begins with. -/
def version (key : Key) : UInt8 := key.addressBytes.toBytes.headD 0

/-- Where to pay: the kept version and the kept digest. -/
def address (key : Key) : Address := ⟨key.version, key.publicKeyHash⟩

variable [SignatureScheme]

/-- The key of a secret key, with an address of this version. -/
def derive (secret : SecretKey) (version : UInt8) : Key :=
  let publicKey := SignatureScheme.publicKey secret
  let publicKeyHash := hash160 publicKey.toBytes
  let addressBytes := Address.toBytes ⟨version, publicKeyHash⟩
  let addressText := Base58.encode addressBytes.toBytes
  { secret, publicKey, publicKeyHash, addressBytes, addressText }

/-- The key with the default address version. -/
def ofSecret (secret : SecretKey) : Key := derive secret defaultAddressVersion

/-- The key derived again, with an address of another version. -/
def withVersion (key : Key) (version : UInt8) : Key := derive key.secret version

/-- The key in 32 bytes. -/
def ofBytes (bytes : Bytes) : Except Error Key := ofSecret <$> SecretKey.ofBytes bytes

/-- The key that 64 hexadecimal digits denote. -/
def ofHex (text : String) : Except Error Key := ofSecret <$> SecretKey.ofHex text

/-- A fresh key from random draws. -/
def generate? (draws : List Bytes) : Option Key := ofSecret <$> SecretKey.fromEntropy? draws

/-- The signature of a digest. -/
def sign (key : Key) (digest : Hash) : Bytes := SignatureScheme.sign key.secret digest

end Key

end Utxo
