/-
**The operands of scripts.**

* `PushKind`, `Control`, `Opcode`: what a byte of a script can ask for, its name and its byte.
* `Operand`: a push with its data, or a control.
* `Opcode.ofByte?_byte`: every opcode is found again by its byte.
-/

import Utxo.Bytes.Basic

namespace Utxo

/-- What pushed data is meant to be. -/
inductive PushKind
  | signature
  | publicKey
  | publicKeyHash
deriving DecidableEq, Repr

/-- An instruction on the stack. -/
inductive Control
  | duplicate
  | hash160
  | equalVerify
  | checkSig
deriving DecidableEq, Repr

/-- What an operand does, its data aside. -/
inductive Opcode
  | push (kind : PushKind)
  | control (instruction : Control)
deriving DecidableEq, Repr

namespace Opcode

/-- The name in messages. -/
def name : Opcode → String
  | .push .signature => "SIG"
  | .push .publicKey => "PUB_KEY"
  | .push .publicKeyHash => "PUB_KEY_HASH"
  | .control .duplicate => "OP_DUP"
  | .control .hash160 => "OP_HASH160"
  | .control .equalVerify => "OP_EQUALVERIFY"
  | .control .checkSig => "OP_CHECKSIG"

/-- The byte in scripts. -/
def byte : Opcode → UInt8
  | .push .signature => 0x01
  | .push .publicKey => 0x02
  | .push .publicKeyHash => 0x03
  | .control .duplicate => 0x76
  | .control .hash160 => 0xa9
  | .control .equalVerify => 0x88
  | .control .checkSig => 0xac

/-- Every opcode. -/
def all : List Opcode :=
  [.push .signature, .push .publicKey, .push .publicKeyHash, .control .duplicate,
    .control .hash160, .control .equalVerify, .control .checkSig]

/-- The opcode of a byte. -/
def ofByte? (byte : UInt8) : Option Opcode := all.find? fun opcode => opcode.byte == byte

/-- Every opcode is found again by its byte. -/
theorem ofByte?_byte (opcode : Opcode) : ofByte? opcode.byte = some opcode := by
  rcases opcode with kind | instruction
  · cases kind <;> rfl
  · cases instruction <;> rfl

/-- The byte of an opcode that was found is the byte that it was found by. -/
theorem byte_of_ofByte? {byte : UInt8} {opcode : Opcode} (found : ofByte? byte = some opcode) :
    opcode.byte = byte := by
  simpa using List.find?_some found

end Opcode

/-- An element of a script or of the stack. -/
inductive Operand
  | push (kind : PushKind) (data : Bytes)
  | control (instruction : Control)
deriving DecidableEq

namespace Operand

/-- What the operand does. -/
def opcode : Operand → Opcode
  | .push kind _ => .push kind
  | .control instruction => .control instruction

/-- The data of a push; a control has none. -/
def data : Operand → Bytes
  | .push _ data => data
  | .control _ => []

/-- Whether the operand carries data. -/
def isPush : Operand → Bool
  | .push _ _ => true
  | .control _ => false

/-- The name in messages. -/
def name (operand : Operand) : String := operand.opcode.name

end Operand

end Utxo
