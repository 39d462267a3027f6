/-
**Everything that validation can report, and its wording.**

* `Error`: the causes, those of the parts wrapped.
* `Error.message`: the text for a caller.
-/

import Utxo.Wire.Reader
import Utxo.Script.Fault
import Utxo.Key.Address
import Utxo.Store.Basic
import Utxo.Config

namespace Utxo

/-- Why an answer cannot be given. -/
inductive Error
  | decode (fault : DecodeError)
  | fieldTooLong (fault : FieldTooLong)
  | script (fault : ScriptError)
  | signatureInvalid
  | rejected (position : Nat) (reason : RejectReason)
  | emptyBlock
  | merkleRootMismatch
  | inputIndexOutOfRange (index count : Nat)
  | lockingScriptCount (inputs scripts : Nat)
  | invalidPrivateKey
  | address (fault : Address.Fault)
  | hex (fault : Hex.Fault)
  | config (fault : Config.Fault)
  | storage (fault : StorageError)
deriving DecidableEq

/-- What a caller is told. -/
def Error.message : Error → String
  | .decode fault => "Decode failed: " ++ fault.message
  | .fieldTooLong fault => fault.message
  | .script fault => fault.message
  | .signatureInvalid => "Signature validation failed"
  | .rejected position reason => s!"Script rejected at operand {position}: " ++ reason.message
  | .emptyBlock => "Block must contain at least one transaction"
  | .merkleRootMismatch => "Merkle root in header does not match transactions"
  | .inputIndexOutOfRange index count => s!"Input index {index} out of range for {count} inputs"
  | .lockingScriptCount inputs scripts =>
    s!"{scripts} locking scripts supplied for {inputs} inputs"
  | .invalidPrivateKey => "Invalid private key"
  | .address fault => "Invalid address: " ++ fault.message
  | .hex fault => "Hex decoding failed: " ++ fault.message
  | .config fault => "Invalid configuration: " ++ fault.message
  | .storage fault => "Storage error: " ++ fault.message

end Utxo
