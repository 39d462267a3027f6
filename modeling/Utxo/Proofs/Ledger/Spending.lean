/-
**Spending, input by input.**

* `Transaction.eqButUnlocking_withUnlocking`: a script that is filled in changes nothing else;
  `Transaction.signingDigest_withUnlocking`: so it is not signed.
* `Transaction.signInput_of_encode`, `signInput_of_encode_error`: signing writes one unlocking script, if
  it fits.
* `Transaction.verifyInput_of_decode`: the answer of an input is that of the programs in its two scripts.
* `Transaction.verifyInput_congr`: what the answer depends on.
* `Transaction.verifyFrom_append_of_accepted`: accepted inputs leave the answer to the rest, by induction
  on them; `Transaction.verify_of_accepted`: a transaction passes if each of its inputs does.
-/

import Utxo.Ledger.Spending
import Utxo.Proofs.Ledger.Message

namespace Utxo.Transaction

/-! ### Filling in an unlocking script -/

section Unlocking

variable (transaction : Transaction) (index : Nat) (unlocking : VarBytes)

@[simp] theorem length_inputs_withUnlocking :
    (transaction.withUnlocking index unlocking).inputs.length = transaction.inputs.length :=
  List.length_modify ..

/-- The input that is filled in. -/
theorem getElem?_withUnlocking_self :
    (transaction.withUnlocking index unlocking).inputs[index]? =
      transaction.inputs[index]?.map fun input => { input with unlocking } :=
  List.getElem?_modify_eq ..

/-- The inputs that are not. -/
theorem getElem?_withUnlocking_of_ne {other : Nat} (apart : index ≠ other) :
    (transaction.withUnlocking index unlocking).inputs[other]? = transaction.inputs[other]? :=
  List.getElem?_modify_ne _ _ apart

/-- Where there is no input, there is nothing to fill in. -/
theorem withUnlocking_of_le (outside : transaction.inputs.length ≤ index) :
    transaction.withUnlocking index unlocking = transaction := by
  rw [withUnlocking, List.modify_eq_self outside]

theorem withUnlocking_comm {place : Nat} (apart : index ≠ place) (spare : VarBytes) :
    (transaction.withUnlocking index unlocking).withUnlocking place spare =
      (transaction.withUnlocking place spare).withUnlocking index unlocking := by
  unfold withUnlocking
  dsimp only
  rw [List.modify_modify_ne _ _ _ apart]

theorem eqButUnlocking_withUnlocking :
    transaction.EqButUnlocking (transaction.withUnlocking index unlocking) where
  version_eq := rfl
  lockTime_eq := rfl
  outputs_eq := rfl
  length_eq := (length_inputs_withUnlocking ..).symm
  input_eq := by
    intro place input other found also
    by_cases same : index = place
    · subst same
      rw [getElem?_withUnlocking_self, found] at also
      cases also
      exact ⟨rfl, rfl, rfl⟩
    · rw [getElem?_withUnlocking_of_ne _ _ _ same, found] at also
      cases also
      exact ⟨rfl, rfl, rfl⟩

/-- **Unlocking scripts are not signed.** -/
@[simp] theorem signingDigest_withUnlocking :
    (transaction.withUnlocking index unlocking).signingDigest = transaction.signingDigest :=
  (transaction.eqButUnlocking_withUnlocking index unlocking).signingDigest_eq.symm

end Unlocking

variable {transaction : Transaction}

theorem inputAt_of_getElem? {index : Nat} {input : TxInput}
    (found : transaction.inputs[index]? = some input) : transaction.inputAt index = .ok input := by
  rw [inputAt, found]

theorem inputAt_of_le {index : Nat} (outside : transaction.inputs.length ≤ index) :
    transaction.inputAt index = .error (.inputIndexOutOfRange index transaction.inputs.length) := by
  rw [inputAt, List.getElem?_eq_none outside]

section Signing

variable [SignatureScheme] {index : Nat} {input : TxInput} {key : Key}

theorem signInput_of_getElem? (found : transaction.inputs[index]? = some input) :
    transaction.signInput index key =
      ((Program.encode (PayToKeyHash.unlocking (transaction.signature key)
        key.publicKey.toBytes)).mapError Error.fieldTooLong >>= fun script =>
          .ok (transaction.withUnlocking index script)) := by
  rw [signInput, inputAt_of_getElem? found]
  rfl

/-- Signing an input writes the script of the signature and the key. -/
theorem signInput_of_encode {script : VarBytes} (found : transaction.inputs[index]? = some input)
    (encoded : Program.encode (PayToKeyHash.unlocking (transaction.signature key)
      key.publicKey.toBytes) = .ok script) :
    transaction.signInput index key = .ok (transaction.withUnlocking index script) := by
  rw [signInput_of_getElem? found, encoded]
  rfl

/-- A script that is too long for an input ends the signing. -/
theorem signInput_of_encode_error {fault : FieldTooLong}
    (found : transaction.inputs[index]? = some input)
    (tooLong : Program.encode (PayToKeyHash.unlocking (transaction.signature key)
      key.publicKey.toBytes) = .error fault) :
    transaction.signInput index key = .error (.fieldTooLong fault) := by
  rw [signInput_of_getElem? found, tooLong]
  rfl

end Signing

/-! ### Checking -/

theorem program_of_decode {script : Bytes} {decoded : Program}
    (read : Program.decode script = .ok decoded) : program script = .ok decoded := by
  rw [program, read]
  rfl

variable [SignatureScheme]

/-- **An input is judged by the programs in its two scripts.** -/
theorem verifyInput_of_decode {index : Nat} {input : TxInput} {locking : Bytes}
    {unlock lock : Program} (found : transaction.inputs[index]? = some input)
    (front : Program.decode input.unlocking.toBytes = .ok unlock)
    (back : Program.decode locking = .ok lock) :
    transaction.verifyInput index locking =
      Program.verify unlock lock transaction.signingDigest := by
  rw [verifyInput, inputAt_of_getElem? found, program_of_decode back]
  show (program input.unlocking.toBytes >>= fun unlock => _) = _
  rw [program_of_decode front]
  rfl

/-- **Of its transaction, an answer depends on the digest and on the input's own script.** -/
theorem verifyInput_congr {first second : Transaction} {index place : Nat} {input other : TxInput}
    (found : first.inputs[index]? = some input) (also : second.inputs[place]? = some other)
    (script : input.unlocking = other.unlocking)
    (digest : first.signingDigest = second.signingDigest) (locking : Bytes) :
    first.verifyInput index locking = second.verifyInput place locking := by
  unfold verifyInput
  rw [inputAt_of_getElem? found, inputAt_of_getElem? also, digest]
  show (program input.unlocking.toBytes >>= _) = (program other.unlocking.toBytes >>= _)
  rw [script]

theorem verifyFrom_cons_of_accepted {index : Nat} {locking : Bytes} {rest : List Bytes}
    (accepted : transaction.verifyInput index locking = .ok .accepted) :
    transaction.verifyFrom index (locking :: rest) = transaction.verifyFrom (index + 1) rest := by
  rw [verifyFrom, accepted]
  rfl

/-- Inputs that are accepted leave the answer to those behind them. -/
theorem verifyFrom_append_of_accepted (front back : List Bytes) (index : Nat)
    (accepted : ∀ offset locking, front[offset]? = some locking →
      transaction.verifyInput (index + offset) locking = .ok .accepted) :
    transaction.verifyFrom index (front ++ back) =
      transaction.verifyFrom (index + front.length) back := by
  induction front generalizing index with
  | nil => rfl
  | cons locking rest ih =>
    have first : transaction.verifyInput index locking = .ok .accepted := accepted 0 locking rfl
    have behind : index + (locking :: rest).length = index + 1 + rest.length := by
      rw [List.length_cons]
      omega
    rw [List.cons_append, verifyFrom_cons_of_accepted first, behind]
    refine ih (index + 1) fun offset other found => ?_
    rw [Nat.add_assoc, Nat.add_comm 1 offset]
    exact accepted (offset + 1) other found

/-- The inputs from an index on pass if each is accepted. -/
theorem verifyFrom_of_accepted (lockings : List Bytes) (index : Nat)
    (accepted : ∀ offset locking, lockings[offset]? = some locking →
      transaction.verifyInput (index + offset) locking = .ok .accepted) :
    transaction.verifyFrom index lockings = .ok () := by
  have behind := verifyFrom_append_of_accepted lockings [] index accepted
  rw [List.append_nil] at behind
  exact behind

/-- **A transaction passes if each input is accepted.** -/
theorem verify_of_accepted {lockings : List Bytes}
    (each : lockings.length = transaction.inputs.length)
    (accepted : ∀ index locking, lockings[index]? = some locking →
      transaction.verifyInput index locking = .ok .accepted) :
    transaction.verify lockings = .ok () := by
  rw [verify, if_neg (not_not_intro each)]
  refine verifyFrom_of_accepted lockings 0 fun offset locking found => ?_
  rw [Nat.zero_add]
  exact accepted offset locking found

end Utxo.Transaction
