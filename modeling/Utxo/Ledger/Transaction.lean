/-
**Transactions, their byte form and their identifiers.**

* `TxInput`, `TxOutput`, `Transaction` and their `Wire` instances.
* `Transaction.decoderWith`: the decoder, given a rule that reads the number of elements of a list
  whose elements have a known least size; `Transaction.decoder` refuses counts that cannot fit.
* `Transaction.id`: the double digest of the byte form.
* `Transaction.signingBytes`: the byte form with every unlocking script emptied, the message that
  signatures are made over; `Transaction.signingDigest` is its single digest.
-/

import Utxo.Wire.Format

namespace Utxo

/-- The spending of an earlier output. -/
structure TxInput where
  prevTx : Hash
  outputIndex : UInt32
  unlocking : VarBytes
  sequence : UInt32
deriving DecidableEq

/-- An amount and the script that guards it. -/
structure TxOutput where
  value : Int32
  locking : VarBytes
deriving DecidableEq

/-- A transaction. -/
structure Transaction where
  version : Int32
  inputs : List TxInput
  outputs : List TxOutput
  lockTime : Int32
deriving DecidableEq

/-- A rule that reads the number of elements of at least `minSize` bytes that follow. -/
abbrev CountRule := (minSize : Nat) → Decoder Nat

namespace TxInput

/-- The size of an input with an empty unlocking script. -/
def minSize : Nat := 41

/-- The fields in order. -/
def encode (input : TxInput) : Bytes :=
  input.prevTx.toBytes ++ LittleEndian.ofUInt32 input.outputIndex ++
    Wire.encodeVarBytes input.unlocking ++ LittleEndian.ofUInt32 input.sequence

/-- Reads the fields in order. -/
def decoder : Decoder TxInput := do
  return ⟨← Decoder.hash, ← Decoder.uint32, ← Decoder.varBytes, ← Decoder.uint32⟩

/-- What a signature covers of an input: one zero byte stands for the unlocking script. -/
def signingBytes (input : TxInput) : Bytes :=
  input.prevTx.toBytes ++ LittleEndian.ofUInt32 input.outputIndex ++ [0] ++
    LittleEndian.ofUInt32 input.sequence

instance : Wire TxInput := ⟨encode, decoder⟩

end TxInput

namespace TxOutput

/-- The size of an output with an empty locking script. -/
def minSize : Nat := 5

/-- The fields in order. -/
def encode (output : TxOutput) : Bytes :=
  LittleEndian.ofInt32 output.value ++ Wire.encodeVarBytes output.locking

/-- Reads the fields in order. -/
def decoder : Decoder TxOutput := do
  return ⟨← Decoder.int32, ← Decoder.varBytes⟩

instance : Wire TxOutput := ⟨encode, decoder⟩

end TxOutput

namespace Transaction

/-- The size of a transaction without inputs and outputs. -/
def minSize : Nat := 24

/-- The fields in order, the lists behind their lengths. -/
def encode (transaction : Transaction) : Bytes :=
  LittleEndian.ofInt32 transaction.version ++ Wire.encodeList transaction.inputs ++
    Wire.encodeList transaction.outputs ++ LittleEndian.ofInt32 transaction.lockTime

/-- Reads the fields in order, the lengths of the lists by the rule `count`. -/
def decoderWith (count : CountRule) : Decoder Transaction := do
  return ⟨← Decoder.int32, ← Wire.decodeList (count TxInput.minSize) TxInput.decoder,
    ← Wire.decodeList (count TxOutput.minSize) TxOutput.decoder, ← Decoder.int32⟩

/-- Reads a transaction; a list that cannot fit into what lies ahead is refused at its count. -/
def decoder : Decoder Transaction := decoderWith Decoder.count

instance : Wire Transaction := ⟨encode, decoder⟩

/-- The identifier of a transaction. -/
def id (transaction : Transaction) : Hash := doubleSha256 transaction.encode

/-- The message that signatures are made over. -/
def signingBytes (transaction : Transaction) : Bytes :=
  LittleEndian.ofInt32 transaction.version ++ Wire.encodeCount transaction.inputs.length ++
    transaction.inputs.flatMap TxInput.signingBytes ++
    Wire.encodeList transaction.outputs ++ LittleEndian.ofInt32 transaction.lockTime

/-- The digest that is signed. -/
def signingDigest (transaction : Transaction) : Hash := sha256 transaction.signingBytes

end Transaction

end Utxo
