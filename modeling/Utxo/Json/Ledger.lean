/-
**The JSON forms of the ledger's types.**

Inputs, outputs, transactions, headers, blocks and Merkle trees are records; a script is a list of
integers, and reading one of more than 255 bytes fails with its length. An operand is the name of a
control, or an object with the kind of a push as its only key.
-/

import Utxo.Json.Record
import Utxo.Ledger.Block
import Utxo.Script.Operand

namespace Utxo

open Json (Record)

namespace TxInput

/-- The fields of an input. -/
def record : Record TxInput :=
  ((Record.field "prev_tx_hash" none).and <| (Record.field "output_index" none).and <|
    (Record.field "unlocking_script" none).and (Record.field "sequence" none)).convert
    (fun (prevTx, outputIndex, unlocking, sequence) => ⟨prevTx, outputIndex, unlocking, sequence⟩)
    (fun input => (input.prevTx, input.outputIndex, input.unlocking, input.sequence))

instance : JsonForm TxInput := ⟨record.toJson, record.ofJson⟩

end TxInput

namespace TxOutput

/-- The fields of an output. -/
def record : Record TxOutput :=
  ((Record.field "value" none).and (Record.field "locking_script" none)).convert
    (fun (value, locking) => ⟨value, locking⟩)
    (fun output => (output.value, output.locking))

instance : JsonForm TxOutput := ⟨record.toJson, record.ofJson⟩

end TxOutput

namespace Transaction

/-- The fields of a transaction. -/
def record : Record Transaction :=
  ((Record.field "version" none).and <| (Record.field "inputs" none).and <|
    (Record.field "outputs" none).and (Record.field "lock_time" none)).convert
    (fun (version, inputs, outputs, lockTime) => ⟨version, inputs, outputs, lockTime⟩)
    (fun transaction => (transaction.version, transaction.inputs, transaction.outputs,
      transaction.lockTime))

instance : JsonForm Transaction := ⟨record.toJson, record.ofJson⟩

end Transaction

namespace BlockHeader

/-- The fields of a header. -/
def record : Record BlockHeader :=
  ((Record.field "version" none).and <| (Record.field "prev_block_hash" none).and <|
    (Record.field "merkle_root" none).and <| (Record.field "timestamp" none).and <|
    (Record.field "difficulty_target" none).and (Record.field "nonce" none)).convert
    (fun (version, prevBlock, merkleRoot, timestamp, target, nonce) =>
      ⟨version, prevBlock, merkleRoot, timestamp, target, nonce⟩)
    (fun header => (header.version, header.prevBlock, header.merkleRoot, header.timestamp,
      header.target, header.nonce))

instance : JsonForm BlockHeader := ⟨record.toJson, record.ofJson⟩

end BlockHeader

namespace Block

/-- The fields of a block. -/
def record : Record Block :=
  ((Record.field "size" none).and <| (Record.field "header" none).and
    (Record.field "transactions" none)).convert
    (fun (size, header, transactions) => ⟨size, header, transactions⟩)
    (fun block => (block.size, block.header, block.transactions))

instance : JsonForm Block := ⟨record.toJson, record.ofJson⟩

end Block

namespace MerkleTree

/-- The fields of a Merkle tree. -/
def record : Record MerkleTree :=
  ((Record.field "root" none).and (Record.field "path" none)).convert
    (fun (root, path) => ⟨root, path⟩)
    (fun tree => (tree.root, tree.path))

instance : JsonForm MerkleTree := ⟨record.toJson, record.ofJson⟩

end MerkleTree

namespace Opcode

/-- The name of an opcode in JSON. -/
def jsonName : Opcode → String
  | .push .signature => "Signature"
  | .push .publicKey => "PublicKey"
  | .push .publicKeyHash => "PublicKeyHash"
  | .control .duplicate => "Duplicate"
  | .control .hash160 => "Hash160"
  | .control .equalVerify => "EqualVerify"
  | .control .checkSig => "CheckSig"

/-- The opcode of a string in JSON. -/
def ofJsonName? (text : Json.Text) : Option Opcode := do
  let name ← text.toString?
  all.find? fun opcode => opcode.jsonName == name

end Opcode

namespace Operand

/-- A control is its name; a push is an object with its kind and its data. -/
def toJson : Operand → Json
  | .push kind data =>
    .object [(Json.Text.ofString (Opcode.push kind).jsonName, JsonForm.toJson data)]
  | .control instruction =>
    .string (Json.Text.ofString (Opcode.control instruction).jsonName)

/-- A control may also be read as the key of a null. -/
def ofJson : Json → Except Json.Fault Operand
  | .string name =>
    match Opcode.ofJsonName? name with
    | some (.control instruction) => .ok (.control instruction)
    | _ => .error .malformed
  | .object [(name, value)] =>
    match Opcode.ofJsonName? name, value with
    | some (.push kind), value => .push kind <$> JsonForm.ofJson value
    | some (.control instruction), .null => .ok (.control instruction)
    | _, _ => .error .malformed
  | _ => .error .malformed

instance : JsonForm Operand := ⟨toJson, ofJson⟩

end Operand

end Utxo
