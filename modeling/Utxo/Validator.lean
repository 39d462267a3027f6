/-
**Validation under a configuration.**

* `Validator`: a configuration whose limit is not zero.
* Decoding and checking of untrusted bytes, keys under the configured address version, and blocks in
  a store, each under the key of its identifier.
-/

import Utxo.Ledger.Block
import Utxo.Ledger.Spending

namespace Utxo

/-- A configuration that decodes something. -/
structure Validator where
  config : Config
  limit_pos : config.maxDecodeSize ≠ 0

namespace Validator

/-- The validator of a configuration. -/
def ofConfig (config : Config) : Except Error Validator :=
  if positive : config.maxDecodeSize ≠ 0 then .ok ⟨config, positive⟩
  else .error (.config .zeroLimit)

/-- The validator of the default configuration. -/
def default : Validator := ⟨Config.default, by decide⟩

instance : Inhabited Validator := ⟨default⟩

/-- The largest input that is decoded. -/
def limit (validator : Validator) : Nat := validator.config.maxDecodeSize.toNat

/-- The value that all of `bytes` encode, within the limit. -/
def decode {α : Type} [Wire α] (validator : Validator) (bytes : Bytes) : Except Error α :=
  (Wire.decodeExact bytes validator.limit).mapError .decode

/-- The block that all of `bytes` encode. -/
def decodeBlock (validator : Validator) (bytes : Bytes) : Except Error Block :=
  validator.decode bytes

/-- The transaction that all of `bytes` encode. -/
def decodeTransaction (validator : Validator) (bytes : Bytes) : Except Error Transaction :=
  validator.decode bytes

/-- The block that all of `bytes` encode, if its header commits to its transactions. -/
def checkBlock (validator : Validator) (bytes : Bytes) : Except Error Block := do
  let block ← validator.decodeBlock bytes
  if ← block.commits then return block else throw .merkleRootMismatch

section Keys

variable [SignatureScheme]

/-- The key that a text denotes, derived again under the configured address version. -/
def importKey (validator : Validator) (text : String) : Except Error Key :=
  (·.withVersion validator.config.addressVersion) <$> Key.ofHex text

/-- A fresh key from random draws, derived again under the configured address version. -/
def generateKey? (validator : Validator) (draws : List Bytes) : Option Key :=
  (·.withVersion validator.config.addressVersion) <$> Key.generate? draws

end Keys

/-! ### Blocks in a store -/

/-- The key of the block with this identifier. -/
def blockKey (hash : String) : String := "b_" ++ hash

variable {σ : Type} [BlockStore σ]

/-- The store with the block in it, and the identifier that it is kept under. -/
def saveBlock (store : σ) (block : Block) : Except Error (String × σ) :=
  let hash := block.hash.toHex
  match BlockStore.save store (blockKey hash) block.encode with
  | .ok store => .ok (hash, store)
  | .error fault => .error (.storage fault)

/-- The block kept under an identifier, if its byte form is within a limit. -/
def loadBlockWithin (limit : UInt64) (store : σ) (hash : String) : Except Error Block :=
  match BlockStore.get store (blockKey hash) with
  | .ok bytes => (Wire.decodeExact bytes limit.toNat).mapError .decode
  | .error fault => .error (.storage fault)

/-- The block kept under an identifier. -/
def loadBlock (validator : Validator) (store : σ) (hash : String) : Except Error Block :=
  loadBlockWithin validator.config.maxDecodeSize store hash

end Validator

end Utxo
