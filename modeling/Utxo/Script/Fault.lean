/-
**How scripts fail.**

* `RejectReason`: a well-formed script that says no.
* `ScriptError`: a script that asks for what the stack does not hold, or that holds malformed key
  material.
-/

import Utxo.Script.Operand
import Utxo.Signature.Fault

namespace Utxo

/-- Why a script says no. -/
inductive RejectReason
  | emptyProgram
  | notAPublicKey
  | notEqual
  | signatureInvalid
deriving DecidableEq, Repr

/-- The reason in words. -/
def RejectReason.message : RejectReason → String
  | .emptyProgram => "empty program"
  | .notAPublicKey => "top of stack is not a public key"
  | .notEqual => "operands are not equal"
  | .signatureInvalid => "signature does not verify"

/-- Why a script cannot be run to an answer. -/
inductive ScriptError
  | underflow (opcode : Opcode) (needed available : Nat)
  | typeMismatch (opcode expected found : Opcode)
  | signature (fault : SignatureFault)
deriving DecidableEq, Repr

/-- What a caller is told. -/
def ScriptError.message : ScriptError → String
  | .underflow opcode needed available =>
    s!"Stack underflow in {opcode.name}: needed {needed}, found {available}"
  | .typeMismatch opcode expected found =>
    s!"Type mismatch in {opcode.name}: expected {expected.name}, found {found.name}"
  | .signature fault => fault.message

end Utxo
