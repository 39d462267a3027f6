/-
**Inputs are authorized independently of one another.**

What an input is judged by is its own unlocking script and the message, and the message tells no unlocking
script. So a signature that is filled in at one index is seen at no other.

* `Transaction.verifyInput_of_signingBytes`: one message and one script have one answer, wherever they
  stand.
* `Transaction.afterSigning`: the transaction behind a signing, whether the signing succeeds or not;
  `afterSigning_eq`: an unlocking script is filled in or nothing is done.
* `Transaction.EqButUnlockingAt`: two transactions agree in all but one unlocking script;
  `EqButUnlockingAt.verifyInput_eq`: the other inputs are judged alike.
* `Transaction.afterSigning_comm`: two signings of different inputs, in either order.
* `Transaction.afterSignings_perm`, `Transaction.verifyInput_afterSignings`: the same for whole runs of
  signings.
-/

import Mathlib.Data.List.Nodup
import Utxo.Proofs.Ledger.Signing
import Utxo.Proofs.Ledger.Verification
import Utxo.Proofs.Signature.Length

namespace Utxo.Transaction

variable {transaction : Transaction} {index place : Nat}

/-! ### Two transactions that differ in one unlocking script -/

/-- **The two transactions agree in everything but the unlocking script at `index`.** -/
structure EqButUnlockingAt (index : Nat) (first second : Transaction) : Prop where
  alike : first.EqButUnlocking second
  input_eq : ∀ place ≠ index, second.inputs[place]? = first.inputs[place]?

theorem EqButUnlockingAt.refl (transaction : Transaction) (index : Nat) :
    EqButUnlockingAt index transaction transaction :=
  ⟨withoutUnlocking_eq_iff.mp rfl, fun _ _ => rfl⟩

theorem eqButUnlockingAt_withUnlocking (transaction : Transaction) (index : Nat)
    (unlocking : VarBytes) :
    EqButUnlockingAt index transaction (transaction.withUnlocking index unlocking) :=
  ⟨eqButUnlocking_withUnlocking .., fun _ apart => getElem?_withUnlocking_of_ne _ _ _ apart.symm⟩

section AnyScheme

variable [SignatureScheme]

/-! ### One message and one script have one answer -/

/-- **The answer to an input is told by the message and the input's own script.** -/
theorem verifyInput_of_signingBytes {first second : Transaction} {input other : TxInput}
    (found : first.inputs[index]? = some input) (also : second.inputs[place]? = some other)
    (message : first.signingBytes = second.signingBytes)
    (script : input.unlocking.toBytes = other.unlocking.toBytes) (locking : Bytes) :
    first.verifyInput index locking = second.verifyInput place locking := by
  have digest : first.signingDigest = second.signingDigest := by
    rw [signingDigest, signingDigest, message]
  exact verifyInput_congr found also (VarBytes.ext script) digest locking

theorem verifyInput_of_le (outside : transaction.inputs.length ≤ index) (locking : Bytes) :
    transaction.verifyInput index locking =
      .error (.inputIndexOutOfRange index transaction.inputs.length) := by
  rw [verifyInput, inputAt_of_le outside]
  rfl

/-- At every other index, be there an input or not, the answers are the same. -/
theorem EqButUnlockingAt.verifyInput_eq {first second : Transaction}
    (alike : EqButUnlockingAt index first second) (apart : place ≠ index) (locking : Bytes) :
    second.verifyInput place locking = first.verifyInput place locking := by
  by_cases inside : place < first.inputs.length
  · exact alike.alike.verifyInput_eq inside (alike.input_eq place apart) locking
  · have outside := Nat.le_of_not_lt inside
    have length := alike.alike.length_eq
    rw [verifyInput_of_le outside, verifyInput_of_le (length ▸ outside), length]

/-! ### Signing one input -/

/-- **The transaction behind a signing.** One that fails leaves it as it was. -/
def afterSigning (transaction : Transaction) (index : Nat) (key : Key) : Transaction :=
  match transaction.signInput index key with
  | .ok signed => signed
  | .error _ => transaction

theorem signInput_of_le (outside : transaction.inputs.length ≤ index) (key : Key) :
    transaction.signInput index key =
      .error (.inputIndexOutOfRange index transaction.inputs.length) := by
  rw [signInput, inputAt_of_le outside]
  rfl

theorem afterSigning_of_le (outside : transaction.inputs.length ≤ index) (key : Key) :
    transaction.afterSigning index key = transaction := by
  rw [afterSigning, signInput_of_le outside]

/-- **A signing fills in its script, or does nothing**: where there is no such input, nothing can be
filled in either. -/
theorem afterSigning_eq (transaction : Transaction) (index : Nat) (key : Key) :
    transaction.afterSigning index key =
      match Program.encode (PayToKeyHash.unlocking (transaction.signature key)
        key.publicKey.toBytes) with
      | .ok script => transaction.withUnlocking index script
      | .error _ => transaction := by
  by_cases inside : index < transaction.inputs.length
  · have found := List.getElem?_eq_getElem inside
    cases encoded : Program.encode (PayToKeyHash.unlocking (transaction.signature key)
      key.publicKey.toBytes) with
    | ok script => rw [afterSigning, signInput_of_encode found encoded]
    | error fault => rw [afterSigning, signInput_of_encode_error found encoded]
  · have outside := Nat.le_of_not_lt inside
    rw [afterSigning_of_le outside]
    split
    next script _ => exact (withUnlocking_of_le _ _ script outside).symm
    next => rfl

/-- A signing changes one unlocking script at most. -/
theorem eqButUnlockingAt_afterSigning (transaction : Transaction) (index : Nat) (key : Key) :
    EqButUnlockingAt index transaction (transaction.afterSigning index key) := by
  rw [afterSigning_eq]
  split
  next script _ => exact eqButUnlockingAt_withUnlocking transaction index script
  next => exact .refl transaction index

theorem signingDigest_afterSigning (transaction : Transaction) (index : Nat) (key : Key) :
    (transaction.afterSigning index key).signingDigest = transaction.signingDigest :=
  (eqButUnlockingAt_afterSigning transaction index key).alike.signingDigest_eq.symm

/-- Keys sign the same before and after. -/
theorem signature_afterSigning (transaction : Transaction) (index : Nat) (key other : Key) :
    (transaction.afterSigning index key).signature other = transaction.signature other :=
  congrArg other.sign (signingDigest_afterSigning transaction index key)

theorem verifyInput_afterSigning (apart : place ≠ index) (transaction : Transaction) (key : Key)
    (locking : Bytes) :
    (transaction.afterSigning index key).verifyInput place locking =
      transaction.verifyInput place locking :=
  (eqButUnlockingAt_afterSigning transaction index key).verifyInput_eq apart locking

/-! ### Signing one input after another -/

/-- **Signings of different inputs commute**: each of the two fills in what it would alone. -/
theorem afterSigning_comm (apart : index ≠ place) (transaction : Transaction) (key other : Key) :
    (transaction.afterSigning index key).afterSigning place other =
      (transaction.afterSigning place other).afterSigning index key := by
  -- in both orders, both scripts are made from the transaction before either signing
  rw [afterSigning_eq _ place other, signature_afterSigning, afterSigning_eq _ index key,
    afterSigning_eq (transaction.afterSigning place other), signature_afterSigning,
    afterSigning_eq _ place other]
  split
  next script _ =>
    split
    next => exact withUnlocking_comm _ _ _ apart _
    next => rfl
  next => rfl

/-- The transaction behind signings, one after another. -/
def afterSignings (transaction : Transaction) (signings : List Signing) : Transaction :=
  signings.foldl (fun between signing => between.afterSigning signing.index signing.key) transaction

/-- **What no signing is for is judged as before.** -/
theorem verifyInput_afterSignings (signings : List Signing) (transaction : Transaction)
    (untouched : ∀ signing ∈ signings, place ≠ signing.index) (locking : Bytes) :
    (transaction.afterSignings signings).verifyInput place locking =
      transaction.verifyInput place locking := by
  induction signings generalizing transaction with
  | nil => rfl
  | cons signing later ih =>
    have rest := ih (transaction.afterSigning signing.index signing.key) fun other member =>
      untouched other (List.mem_cons_of_mem _ member)
    have apart := untouched signing List.mem_cons_self
    exact rest.trans (verifyInput_afterSigning apart transaction signing.key locking)

/-- **Different inputs are signed in any order.** -/
theorem afterSignings_perm {signings others : List Signing} (reordered : signings.Perm others)
    (distinct : (signings.map Signing.index).Nodup) (transaction : Transaction) :
    transaction.afterSignings signings = transaction.afterSignings others := by
  refine reordered.foldl_eq' (fun signing member other also between => ?_) transaction
  by_cases same : signing.index = other.index
  -- distinct indices: two signings of one index are one signing
  · rw [List.inj_on_of_nodup_map distinct member also same]
  · exact afterSigning_comm same between signing.key other.key

/-- **Inputs are authorized independently of one another.** Where message and script are the same, so is
the answer, whatever the index and the transaction. So a signing, which fails just where there is no
such input if the signature is short, changes no more than one unlocking script: the digest is as it was,
at every other index every locking script is answered as before, and signings of different inputs can
change places. -/
theorem inputs_independent :
    (∀ (first second : Transaction) (index place : Nat) (input other : TxInput),
      first.inputs[index]? = some input → second.inputs[place]? = some other →
      first.signingBytes = second.signingBytes →
      input.unlocking.toBytes = other.unlocking.toBytes →
      ∀ locking, first.verifyInput index locking = second.verifyInput place locking) ∧
    ∀ (transaction : Transaction) (index : Nat) (key : Key),
      (transaction.inputs.length ≤ index →
        transaction.signInput index key =
          .error (.inputIndexOutOfRange index transaction.inputs.length) ∧
        transaction.afterSigning index key = transaction) ∧
      (index < transaction.inputs.length →
        (∀ digest, (key.sign digest).length ≤ maxSignatureLength) →
        ∃ script, Program.encode (PayToKeyHash.unlocking (transaction.signature key)
            key.publicKey.toBytes) = .ok script ∧
          transaction.signInput index key = .ok (transaction.withUnlocking index script)) ∧
      EqButUnlockingAt index transaction (transaction.afterSigning index key) ∧
      (transaction.afterSigning index key).signingDigest = transaction.signingDigest ∧
      ∀ place ≠ index,
        (∀ locking, (transaction.afterSigning index key).verifyInput place locking =
          transaction.verifyInput place locking) ∧
        ∀ other, (transaction.afterSigning index key).afterSigning place other =
          (transaction.afterSigning place other).afterSigning index key := by
  refine ⟨fun first second index place input other found also message script locking => ?_,
    fun transaction index key => ⟨fun outside => ?_, fun inside short => ?_,
      eqButUnlockingAt_afterSigning transaction index key,
      signingDigest_afterSigning transaction index key, fun place apart => ⟨?_, ?_⟩⟩⟩
  · exact verifyInput_of_signingBytes found also message script locking
  · exact ⟨signInput_of_le outside key, afterSigning_of_le outside key⟩
  · obtain ⟨script, encoded⟩ := exists_unlocking (short transaction.signingDigest)
    exact ⟨script, encoded, signInput_of_encode (List.getElem?_eq_getElem inside) encoded⟩
  · exact verifyInput_afterSigning apart transaction key
  · exact afterSigning_comm apart.symm transaction key

end AnyScheme

/-- The first input of the pair is judged as the second one, also behind a script that is filled in; and
two keys sign the pair in either order, at no third index. -/
theorem inputs_independent_pair :
    (∀ locking, pair.verifyInput 0 locking =
      (pair.withUnlocking 0 ⟨[0x01, 0], by decide⟩).verifyInput 1 locking) ∧
    pair.signInput 2 firstKey = .error (.inputIndexOutOfRange 2 2) ∧
    (∃ script, Program.encode (PayToKeyHash.unlocking (pair.signature firstKey)
        firstKey.publicKey.toBytes) = .ok script ∧
      pair.signInput 0 firstKey = .ok (pair.withUnlocking 0 script)) ∧
    (∀ locking, (pair.afterSigning 0 firstKey).verifyInput 1 locking = pair.verifyInput 1 locking) ∧
    (pair.afterSigning 0 firstKey).afterSigning 1 secondKey =
      (pair.afterSigning 1 secondKey).afterSigning 0 firstKey := by
  have signing := inputs_independent.2 pair 0 firstKey
  refine ⟨?_, ((inputs_independent.2 pair 2 firstKey).1 (by decide)).1, ?_, ?_, ?_⟩
  · have message := (eqButUnlocking_withUnlocking pair 0 ⟨[0x01, 0], by decide⟩).signingBytes_eq
    exact inputs_independent.1 pair _ 0 1 _ _ rfl rfl message rfl
  · exact signing.2.1 (by decide) (Key.length_sign_le firstKey)
  · exact (signing.2.2.2.2 1 (by decide)).1
  · exact (signing.2.2.2.2 1 (by decide)).2 secondKey

end Utxo.Transaction
