/-
**Spending: signing the inputs of a transaction, and checking them.**

* `Transaction.verifyInput`: one input against the locking script of the output that it spends.
* `Transaction.verify`: all inputs, each against its own locking script; the first that is not
  accepted decides.
* `Transaction.signInput`: fills an input with a signature and a public key.
-/

import Utxo.Key.Basic
import Utxo.Ledger.Transaction
import Utxo.Script.Machine
import Utxo.Script.PayToKeyHash

namespace Utxo.Transaction

variable [SignatureScheme]

/-- The program in the bytes of a script. -/
def program (script : Bytes) : Except Error Program := (Program.decode script).mapError .decode

/-- The input at an index. -/
def inputAt (transaction : Transaction) (index : Nat) : Except Error TxInput :=
  match transaction.inputs[index]? with
  | some input => .ok input
  | none => .error (.inputIndexOutOfRange index transaction.inputs.length)

/-- Whether the input at `index` may spend an output that is guarded by `locking`. The two scripts
are read one by one, so neither can reach into the other. -/
def verifyInput (transaction : Transaction) (index : Nat) (locking : Bytes) :
    Except Error Verdict := do
  let input ← transaction.inputAt index
  let unlocking ← program input.unlocking.toBytes
  let locking ← program locking
  Program.verify unlocking locking transaction.signingDigest

/-- Checks the inputs from `index` on, each against its own script. -/
def verifyFrom (transaction : Transaction) (index : Nat) : List Bytes → Except Error Unit
  | [] => .ok ()
  | locking :: rest => do
    (← transaction.verifyInput index locking).toResult
    verifyFrom transaction (index + 1) rest

/-- Checks every input against the locking script of the same index. -/
def verify (transaction : Transaction) (lockings : List Bytes) : Except Error Unit :=
  if lockings.length ≠ transaction.inputs.length then
    .error (.lockingScriptCount transaction.inputs.length lockings.length)
  else transaction.verifyFrom 0 lockings

/-- The signature of the transaction by a key. -/
def signature (transaction : Transaction) (key : Key) : Bytes := key.sign transaction.signingDigest

/-- The transaction with another unlocking script at an index. -/
def withUnlocking (transaction : Transaction) (index : Nat) (unlocking : VarBytes) : Transaction :=
  { transaction with
    inputs := transaction.inputs.modify index fun input => { input with unlocking } }

/-- The transaction with its input at `index` unlocked by a key. Unlocking scripts are not signed, so
inputs can be signed in any order. -/
def signInput (transaction : Transaction) (index : Nat) (key : Key) : Except Error Transaction := do
  let _ ← transaction.inputAt index
  let unlocking := PayToKeyHash.unlocking (transaction.signature key) key.publicKey.toBytes
  let script ← (Program.encode unlocking).mapError .fieldTooLong
  return transaction.withUnlocking index script

end Utxo.Transaction
