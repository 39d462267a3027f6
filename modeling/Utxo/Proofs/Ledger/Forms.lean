/-
**The byte forms of the ledger have one reading, and nothing else is read.**

* `TxInput.decoder_inverts` up to `Block.decoder_inverts`: the decoder of each type succeeds just on
  the forms of its values. Transactions and blocks are treated at once for all rules that read counts
  lawfully; the least sizes of their elements are lower bounds (`TxInput.minSize_le` and its kin), so
  the rule in use refuses no count that was written.
* `Transaction.Countable`, `Block.Countable`: the lists are short enough for their counts;
  `Block.countable_of_length_lt`: as they are in every form whose length can be named.
* `canonical_forms`: what is accepted is a form. `forms_readBack`: every form is accepted, wherever it
  stands.
-/

import Utxo.Ledger.Block
import Utxo.Proofs.Wire.Canonical

namespace Utxo

open Decoder

/-! ### Inputs and outputs -/

namespace TxInput

theorem decoder_inverts : decoder.Inverts encode fun _ => True := by
  intro reader after value
  simp only [decoder, encode, bind_eq_ok_iff, pure_eq_ok_iff, hash_inverts.iff, uint32_inverts.iff,
    varBytes_inverts.iff, Reader.passes_append, true_and]
  constructor
  · rintro ⟨_, atIndex, prevTx, _, atScript, outputIndex, _, atSequence, unlocking, _, _, sequence,
      rfl, rfl⟩
    exact ⟨atSequence, ⟨atScript, ⟨atIndex, prevTx, outputIndex⟩, unlocking⟩, sequence⟩
  · rintro ⟨atSequence, ⟨atScript, ⟨atIndex, prevTx, outputIndex⟩, unlocking⟩, sequence⟩
    exact ⟨_, atIndex, prevTx, _, atScript, outputIndex, _, atSequence, unlocking, _, _, sequence,
      rfl, rfl⟩

/-- No input takes less than one with an empty script. -/
theorem minSize_le (input : TxInput) : minSize ≤ (encode input).length := by
  simp only [minSize, encode, Wire.encodeVarBytes, List.length_append, List.length_cons,
    FixedBytes.length_toBytes, LittleEndian.length_ofUInt32]
  omega

end TxInput

namespace TxOutput

theorem decoder_inverts : decoder.Inverts encode fun _ => True := by
  intro reader after value
  simp only [decoder, encode, bind_eq_ok_iff, pure_eq_ok_iff, int32_inverts.iff,
    varBytes_inverts.iff, Reader.passes_append, true_and]
  constructor
  · rintro ⟨_, atScript, amount, _, _, locking, rfl, rfl⟩
    exact ⟨atScript, amount, locking⟩
  · rintro ⟨atScript, amount, locking⟩
    exact ⟨_, atScript, amount, _, _, locking, rfl, rfl⟩

/-- No output takes less than one with an empty script. -/
theorem minSize_le (output : TxOutput) : minSize ≤ (encode output).length := by
  simp only [minSize, encode, Wire.encodeVarBytes, List.length_append, List.length_cons,
    LittleEndian.length_ofInt32]
  omega

end TxOutput

/-! ### Transactions -/

namespace Transaction

/-- The lists are short enough for their counts. -/
def Countable (transaction : Transaction) : Prop :=
  transaction.inputs.length < Wire.countBound ∧ transaction.outputs.length < Wire.countBound

theorem decoderWith_inverts {rule : CountRule} (lawful : rule.Lawful) :
    (decoderWith rule).Inverts encode Countable := by
  have inputs := Inverts.list lawful TxInput.decoder_inverts (by decide) TxInput.minSize_le
  have outputs := Inverts.list lawful TxOutput.decoder_inverts (by decide) TxOutput.minSize_le
  intro reader after value
  simp only [decoderWith, encode, bind_eq_ok_iff, pure_eq_ok_iff, int32_inverts.iff, inputs.iff,
    outputs.iff, Reader.passes_append, true_and]
  constructor
  · rintro ⟨_, atInputs, version, _, atOutputs, ⟨⟨inputCount, _⟩, inputs⟩, _, atLockTime,
      ⟨⟨outputCount, _⟩, outputs⟩, _, _, lockTime, rfl, rfl⟩
    exact ⟨⟨inputCount, outputCount⟩, atLockTime, ⟨atOutputs, ⟨atInputs, version, inputs⟩, outputs⟩,
      lockTime⟩
  · rintro ⟨⟨inputCount, outputCount⟩, atLockTime, ⟨atOutputs, ⟨atInputs, version, inputs⟩, outputs⟩,
      lockTime⟩
    exact ⟨_, atInputs, version, _, atOutputs, ⟨⟨inputCount, fun _ _ => trivial⟩, inputs⟩, _,
      atLockTime, ⟨⟨outputCount, fun _ _ => trivial⟩, outputs⟩, _, _, lockTime, rfl, rfl⟩

theorem decoder_inverts : decoder.Inverts encode Countable := decoderWith_inverts count_lawful

/-- No transaction takes less than one without inputs and outputs. -/
theorem minSize_le (transaction : Transaction) : minSize ≤ (encode transaction).length := by
  simp only [minSize, encode, Wire.encodeList, Wire.encodeCount, List.length_append,
    LittleEndian.length_ofInt32, LittleEndian.length_encode]
  omega

end Transaction

/-! ### Blocks -/

theorem BlockHeader.decoder_inverts : BlockHeader.decoder.Inverts BlockHeader.encode fun _ => True := by
  intro reader after value
  simp only [decoder, encode, bind_eq_ok_iff, pure_eq_ok_iff, hash_inverts.iff, int32_inverts.iff,
    int64_inverts.iff, Reader.passes_append, true_and]
  constructor
  · rintro ⟨_, atPrev, version, _, atRoot, prevBlock, _, atTime, root, _, atTarget, time, _, atNonce,
      target, _, _, nonce, rfl, rfl⟩
    exact ⟨atNonce, ⟨atTarget, ⟨atTime, ⟨atRoot, ⟨atPrev, version, prevBlock⟩, root⟩, time⟩, target⟩,
      nonce⟩
  · rintro ⟨atNonce, ⟨atTarget, ⟨atTime, ⟨atRoot, ⟨atPrev, version, prevBlock⟩, root⟩, time⟩, target⟩,
      nonce⟩
    exact ⟨_, atPrev, version, _, atRoot, prevBlock, _, atTime, root, _, atTarget, time, _, atNonce,
      target, _, _, nonce, rfl, rfl⟩

namespace Block

/-- The list of transactions, and the lists in each of them, are short enough for their counts. -/
def Countable (block : Block) : Prop :=
  block.transactions.length < Wire.countBound ∧
    ∀ transaction ∈ block.transactions, transaction.Countable

theorem decoderWith_inverts {rule : CountRule} (lawful : rule.Lawful) :
    (decoderWith rule).Inverts encode Countable := by
  have transactions := Inverts.list lawful (Transaction.decoderWith_inverts lawful) (by decide)
    Transaction.minSize_le
  intro reader after value
  simp only [decoderWith, encode, bind_eq_ok_iff, pure_eq_ok_iff, int32_inverts.iff,
    BlockHeader.decoder_inverts.iff, transactions.iff, Reader.passes_append, true_and]
  constructor
  · rintro ⟨_, atHeader, size, _, atList, header, _, _, ⟨countable, list⟩, rfl, rfl⟩
    exact ⟨countable, atList, ⟨atHeader, size, header⟩, list⟩
  · rintro ⟨countable, atList, ⟨atHeader, size, header⟩, list⟩
    exact ⟨_, atHeader, size, _, atList, header, _, _, ⟨countable, list⟩, rfl, rfl⟩

theorem decoder_inverts : decoder.Inverts encode Countable := decoderWith_inverts count_lawful

end Block

/-! ### Short forms are of short lists -/

/-- Elements of a form that has a length have one themselves, and there are not too many of them. -/
theorem Wire.list_le_of_length_encodeList {α : Type} [Wire α] {least : Nat}
    (each : ∀ value : α, least ≤ (Wire.encode value).length) (values : List α) :
    values.length * least ≤ (Wire.encodeList values).length ∧
      ∀ value ∈ values, (Wire.encode value).length ≤ (Wire.encodeList values).length := by
  have length : (values.flatMap Wire.encode).length ≤ (Wire.encodeList values).length := by
    rw [Wire.encodeList, List.length_append]
    exact Nat.le_add_left ..
  refine ⟨?_, fun value member => ?_⟩
  · exact Nat.le_trans (length_mul_le_flatMap values fun value _ => each value) length
  · rw [List.flatMap_def] at length
    have part := List.sublist_flatten_of_mem (List.mem_map_of_mem (f := Wire.encode) member)
    exact Nat.le_trans part.length_le length

/-- A transaction whose form has a length that can be named has lists that can be counted. -/
theorem Transaction.countable_of_length_lt {transaction : Transaction}
    (short : transaction.encode.length < UInt64.size) : transaction.Countable := by
  have inputs := (Wire.list_le_of_length_encodeList TxInput.minSize_le transaction.inputs).1
  have outputs := (Wire.list_le_of_length_encodeList TxOutput.minSize_le transaction.outputs).1
  simp only [Transaction.encode, List.length_append] at short
  simp only [TxInput.minSize, TxOutput.minSize] at inputs outputs
  have bound : Wire.countBound * 2 = UInt64.size := rfl
  refine ⟨?_, ?_⟩ <;> omega

theorem Block.countable_of_length_lt {block : Block} (short : block.encode.length < UInt64.size) :
    block.Countable := by
  obtain ⟨count, each⟩ :=
    Wire.list_le_of_length_encodeList Transaction.minSize_le block.transactions
  simp only [Block.encode, List.length_append] at short
  simp only [Transaction.minSize] at count
  have bound : Wire.countBound * 2 = UInt64.size := rfl
  refine ⟨by omega, fun transaction member => Transaction.countable_of_length_lt ?_⟩
  have part : transaction.encode.length ≤ _ := each transaction member
  omega

/-! ### What callers get -/

/-- **Every type of the ledger has one byte form for each value, and nothing else is accepted.** -/
theorem canonical_forms :
    Wire.Canonical TxInput (fun _ => True) ∧ Wire.Canonical TxOutput (fun _ => True) ∧
      Wire.Canonical BlockHeader (fun _ => True) ∧
      Wire.Canonical Transaction Transaction.Countable ∧ Wire.Canonical Block Block.Countable :=
  ⟨Wire.canonical_of_inverts TxInput.decoder_inverts,
    Wire.canonical_of_inverts TxOutput.decoder_inverts,
    Wire.canonical_of_inverts BlockHeader.decoder_inverts,
    Wire.canonical_of_inverts Transaction.decoder_inverts,
    Wire.canonical_of_inverts Block.decoder_inverts⟩

/-- An output of a negative amount, in its only form. -/
theorem canonical_forms_output :
    Wire.decodeExact [0xfe, 0xff, 0xff, 0xff, 0x01, 0xac] 6 =
      .ok (⟨-2, ⟨[0xac], by decide⟩⟩ : TxOutput) :=
  canonical_forms.2.1.accepted.mpr ⟨trivial, by decide, by decide⟩

/-- **Every type of the ledger reads its byte forms back, in any surroundings.** -/
theorem forms_readBack :
    Wire.ReadsBack TxInput (fun _ => True) ∧ Wire.ReadsBack TxOutput (fun _ => True) ∧
      Wire.ReadsBack BlockHeader (fun _ => True) ∧
      Wire.ReadsBack Transaction Transaction.Countable ∧ Wire.ReadsBack Block Block.Countable :=
  ⟨Wire.readsBack_of_inverts TxInput.decoder_inverts,
    Wire.readsBack_of_inverts TxOutput.decoder_inverts,
    Wire.readsBack_of_inverts BlockHeader.decoder_inverts,
    Wire.readsBack_of_inverts Transaction.decoder_inverts,
    Wire.readsBack_of_inverts Block.decoder_inverts⟩

/-- A transaction of two inputs, one of them with a script. -/
def twoInputs : Transaction where
  version := -1
  inputs := [⟨FixedBytes.zero 32, 0, .empty, 0⟩, ⟨FixedBytes.zero 32, 1, ⟨[0x76, 0], by decide⟩, 9⟩]
  outputs := []
  lockTime := 0

/-- With a byte before it and two behind it, it is read alone. -/
theorem forms_readBack_twoInputs :
    Transaction.decoder (Reader.within ([7] ++ twoInputs.encode ++ [9, 9]) 1) =
      .ok twoInputs (Reader.within ([7] ++ twoInputs.encode ++ [9, 9]) 109) :=
  forms_readBack.2.2.2.1.anywhere ⟨by decide, by decide⟩ [7] [9, 9]

end Utxo
