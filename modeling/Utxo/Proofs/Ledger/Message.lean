/-
**The message that signatures are made over.**

The message is the byte form of the transaction without its unlocking scripts, so it is read back like
any other byte form: no bytes of an input can be taken for an output or a count of another transaction.

* `Transaction.withoutUnlocking`: every unlocking script emptied; `signingBytes_eq_encode`: the byte
  form of that is the message.
* `Transaction.EqButUnlocking`: two transactions agree in everything but their unlocking scripts;
  `withoutUnlocking_eq_iff`: without those they are one.
* `Transaction.signingBytes_commits`: messages are equal just where the transactions agree in this way.
-/

import Utxo.Proofs.Ledger.Forms

namespace Utxo

/-! ### Inputs without their scripts -/

namespace TxInput

def withoutUnlocking (input : TxInput) : TxInput := { input with unlocking := .empty }

/-- The two inputs spend one output, with one sequence number. -/
structure EqButUnlocking (first second : TxInput) : Prop where
  prevTx_eq : first.prevTx = second.prevTx
  outputIndex_eq : first.outputIndex = second.outputIndex
  sequence_eq : first.sequence = second.sequence

theorem withoutUnlocking_eq_iff {first second : TxInput} :
    first.withoutUnlocking = second.withoutUnlocking ↔ first.EqButUnlocking second := by
  unfold withoutUnlocking
  rw [TxInput.mk.injEq]
  refine ⟨fun same => ⟨same.1, same.2.1, same.2.2.2⟩, fun same => ?_⟩
  exact ⟨same.prevTx_eq, same.outputIndex_eq, rfl, same.sequence_eq⟩

/-- The length byte of the empty script is the byte that stands for a script in the message. -/
theorem signingBytes_eq_encode (input : TxInput) :
    input.signingBytes = encode input.withoutUnlocking := rfl

end TxInput

namespace Transaction

/-! ### The message is a byte form -/

/-- The transaction with every unlocking script emptied. -/
def withoutUnlocking (transaction : Transaction) : Transaction :=
  { transaction with inputs := transaction.inputs.map TxInput.withoutUnlocking }

theorem length_inputs_withoutUnlocking (transaction : Transaction) :
    transaction.withoutUnlocking.inputs.length = transaction.inputs.length := List.length_map ..

/-- **The message is the byte form of the transaction without its unlocking scripts.** -/
theorem signingBytes_eq_encode (transaction : Transaction) :
    transaction.signingBytes = transaction.withoutUnlocking.encode := by
  have each : TxInput.signingBytes = fun input => TxInput.encode input.withoutUnlocking :=
    funext TxInput.signingBytes_eq_encode
  have inputs : Wire.encodeList transaction.withoutUnlocking.inputs =
      Wire.encodeCount transaction.inputs.length ++
        transaction.inputs.flatMap TxInput.signingBytes := by
    rw [Wire.encodeList, length_inputs_withoutUnlocking, withoutUnlocking, List.flatMap_map, each]
    rfl
  unfold encode signingBytes
  rw [inputs, ← List.append_assoc]
  rfl

theorem Countable.withoutUnlocking {transaction : Transaction} (countable : transaction.Countable) :
    transaction.withoutUnlocking.Countable := by
  refine ⟨?_, countable.2⟩
  rw [length_inputs_withoutUnlocking]
  exact countable.1

/-! ### What the message tells -/

/-- **The two transactions agree in everything but their unlocking scripts**, input by input. -/
structure EqButUnlocking (first second : Transaction) : Prop where
  version_eq : first.version = second.version
  lockTime_eq : first.lockTime = second.lockTime
  outputs_eq : first.outputs = second.outputs
  length_eq : first.inputs.length = second.inputs.length
  input_eq : ∀ (index : Nat) (input other : TxInput), first.inputs[index]? = some input →
    second.inputs[index]? = some other → input.EqButUnlocking other

variable {first second : Transaction}

/-- Lists of inputs agree but for the scripts when they are as long and their elements agree. -/
theorem map_withoutUnlocking_eq_iff {inputs others : List TxInput} :
    inputs.map TxInput.withoutUnlocking = others.map TxInput.withoutUnlocking ↔
      inputs.length = others.length ∧ ∀ (index : Nat) (input other : TxInput),
        inputs[index]? = some input → others[index]? = some other → input.EqButUnlocking other := by
  constructor
  · intro same
    have length := congrArg List.length same
    rw [List.length_map, List.length_map] at length
    refine ⟨length, fun index input other found also => ?_⟩
    have here := congrArg (·[index]?) same
    simp only [List.getElem?_map, found, also, Option.map_some, Option.some.injEq] at here
    exact TxInput.withoutUnlocking_eq_iff.mp here
  · rintro ⟨length, each⟩
    refine List.ext_getElem (by rw [List.length_map, List.length_map, length]) fun index here there => ?_
    rw [List.getElem_map, List.getElem_map]
    refine TxInput.withoutUnlocking_eq_iff.mpr (each index _ _ ?_ ?_)
    · exact List.getElem?_eq_getElem _
    · exact List.getElem?_eq_getElem _

theorem withoutUnlocking_eq_iff :
    first.withoutUnlocking = second.withoutUnlocking ↔ first.EqButUnlocking second := by
  unfold withoutUnlocking
  rw [Transaction.mk.injEq, map_withoutUnlocking_eq_iff]
  constructor
  · rintro ⟨version, ⟨length, each⟩, outputs, lockTime⟩
    exact ⟨version, lockTime, outputs, length, each⟩
  · intro same
    exact ⟨same.version_eq, ⟨same.length_eq, same.input_eq⟩, same.outputs_eq, same.lockTime_eq⟩

/-- Transactions that agree have one message, whatever the lengths of their lists. -/
theorem EqButUnlocking.signingBytes_eq (same : first.EqButUnlocking second) :
    first.signingBytes = second.signingBytes := by
  rw [signingBytes_eq_encode, signingBytes_eq_encode, withoutUnlocking_eq_iff.mpr same]

theorem EqButUnlocking.signingDigest_eq (same : first.EqButUnlocking second) :
    first.signingDigest = second.signingDigest := by
  rw [signingDigest, signingDigest, same.signingBytes_eq]

/-- One message has one reading. -/
theorem eqButUnlocking_of_signingBytes_eq (firstCountable : first.Countable)
    (secondCountable : second.Countable) (same : first.signingBytes = second.signingBytes) :
    first.EqButUnlocking second := by
  rw [signingBytes_eq_encode, signingBytes_eq_encode] at same
  refine withoutUnlocking_eq_iff.mp ?_
  exact Wire.eq_of_encode_eq decoder_inverts firstCountable.withoutUnlocking
    secondCountable.withoutUnlocking same

/-- **A signature commits to everything but the unlocking scripts, and to nothing else.** The message
is the byte form of the transaction with these scripts emptied; and two transactions have one message
just where they agree in everything else. -/
theorem signingBytes_commits :
    (∀ transaction : Transaction,
      transaction.signingBytes = transaction.withoutUnlocking.encode) ∧
    ∀ first second : Transaction, first.Countable → second.Countable →
      (first.signingBytes = second.signingBytes ↔ first.EqButUnlocking second) := by
  refine ⟨signingBytes_eq_encode, fun first second firstCountable secondCountable => ⟨?_, ?_⟩⟩
  · exact eqButUnlocking_of_signingBytes_eq firstCountable secondCountable
  · exact EqButUnlocking.signingBytes_eq

/-- The message of two inputs does not tell the script of one, and does tell their order. -/
theorem signingBytes_commits_twoInputs :
    twoInputs.Countable ∧ twoInputs.encode ≠ twoInputs.withoutUnlocking.encode ∧
      twoInputs.signingBytes = twoInputs.withoutUnlocking.signingBytes ∧
      twoInputs.signingBytes ≠
        { twoInputs with inputs := twoInputs.inputs.reverse }.signingBytes := by
  have countable : twoInputs.Countable := ⟨by decide, by decide⟩
  have reversed : { twoInputs with inputs := twoInputs.inputs.reverse }.Countable :=
    ⟨by decide, by decide⟩
  refine ⟨countable, by decide, ?_, ?_⟩
  · refine (signingBytes_commits.2 _ _ countable countable.withoutUnlocking).mpr ?_
    exact withoutUnlocking_eq_iff.mp rfl
  · intro same
    have agree := (signingBytes_commits.2 _ _ countable reversed).mp same
    have apart : (0 : UInt32) = 1 := (agree.input_eq 0 _ _ rfl rfl).outputIndex_eq
    exact absurd apart (by decide)

end Transaction

end Utxo
