/-
**The boundary between the two scripts of an input cannot be crossed.**

The unlocking script and the locking script are read one by one. Read together, they would be the same
programs where each is well formed; but a push that is cut short at the end of the first would then take
its data from the second.

* `Transaction.verifyInput_of_undecoded`, `verifyInput_of_undecoded_locking`: a script that cannot be read
  decides alone, the unlocking one first.
* `Transaction.verifyInput_boundary`: where both can be read, the answer is that of the program in both of
  them, one behind the other; and only a script that is cut short can be completed by another one.
* `Transaction.verifyInput_boundary_cutPush`: such a script, which the next would complete, is refused.
-/

import Utxo.Signature.Ecdsa
import Utxo.Proofs.Ledger.Independence
import Utxo.Proofs.Script.Splitting

namespace Utxo.Transaction

variable {transaction : Transaction} {index : Nat} {input : TxInput}

theorem program_of_undecoded {script : Bytes} {fault : DecodeError}
    (failed : Program.decode script = .error fault) : program script = .error (.decode fault) := by
  rw [program, failed]
  rfl

section AnyScheme

variable [SignatureScheme]

/-- An unlocking script that cannot be read decides, whatever the locking script is. -/
theorem verifyInput_of_undecoded {fault : DecodeError}
    (found : transaction.inputs[index]? = some input)
    (failed : Program.decode input.unlocking.toBytes = .error fault) (locking : Bytes) :
    transaction.verifyInput index locking = .error (.decode fault) := by
  rw [verifyInput, inputAt_of_getElem? found]
  show (program input.unlocking.toBytes >>= _) = _
  rw [program_of_undecoded failed]
  rfl

/-- Behind an unlocking script that can be read, a locking script that cannot decides. -/
theorem verifyInput_of_undecoded_locking {unlock : Program} {fault : DecodeError} {locking : Bytes}
    (found : transaction.inputs[index]? = some input)
    (front : Program.decode input.unlocking.toBytes = .ok unlock)
    (failed : Program.decode locking = .error fault) :
    transaction.verifyInput index locking = .error (.decode fault) := by
  rw [verifyInput, inputAt_of_getElem? found, program_of_undecoded failed]
  show (program input.unlocking.toBytes >>= fun unlock => _) = _
  rw [program_of_decode front]
  rfl

/-- **The boundary between the two scripts of an input cannot be crossed.** Where there is no such input,
this is said whatever the scripts are. An unlocking script that cannot be read is refused by its own
fault, whatever the locking script is, also where the two together could be read: then it was cut short,
and it is not completed. Behind one that can be read, any bytes are read as if they stood alone; a locking
script that cannot be read is refused by its own fault; and the answer to two that can be read is that of
the program in both of them, on the empty stack. -/
theorem verifyInput_boundary (transaction : Transaction) (index : Nat) :
    (transaction.inputs.length ≤ index → ∀ locking, transaction.verifyInput index locking =
      .error (.inputIndexOutOfRange index transaction.inputs.length)) ∧
    ∀ input, transaction.inputs[index]? = some input →
      (∀ fault, Program.decode input.unlocking.toBytes = .error fault → ∀ locking,
        transaction.verifyInput index locking = .error (.decode fault) ∧
        ∀ whole, Program.decode (input.unlocking.toBytes ++ locking) = .ok whole →
          fault.IsTruncated) ∧
      ∀ unlock, Program.decode input.unlocking.toBytes = .ok unlock → ∀ locking,
        Program.decode (input.unlocking.toBytes ++ locking) =
          (unlock ++ ·) <$> Program.decode locking ∧
        (∀ fault, Program.decode locking = .error fault →
          transaction.verifyInput index locking = .error (.decode fault)) ∧
        ∀ lock, Program.decode locking = .ok lock →
          ∃ whole, Program.decode (input.unlocking.toBytes ++ locking) = .ok whole ∧
            transaction.verifyInput index locking =
              Program.answer (Program.evaluate transaction.signingDigest whole) := by
  refine ⟨verifyInput_of_le, fun input found => ⟨fun fault failed locking => ⟨?_, ?_⟩,
    fun unlock front locking => ⟨?_, fun fault failed => ?_, fun lock back => ?_⟩⟩⟩
  · exact verifyInput_of_undecoded found failed locking
  · intro whole together
    by_contra decided
    rw [Program.decode_append_of_error failed decided] at together
    cases together
  · exact Program.decode_append_of_ok front locking
  · exact verifyInput_of_undecoded_locking found front failed
  · refine ⟨unlock ++ lock, ?_, verifyInput_of_decode found front back⟩
    rw [Program.decode_append_of_ok front, back]
    rfl

end AnyScheme

/-! ### A push that is cut short -/

/-- Unlocks with a push that wants another byte, and with a datum. -/
def cutPush : Transaction where
  version := 1
  inputs := [⟨FixedBytes.zero 32, 0, ⟨[0x01, 2, 0xaa], by decide⟩, 0⟩,
    ⟨FixedBytes.zero 32, 1, ⟨[0x01, 1, 7], by decide⟩, 0⟩]
  outputs := []
  lockTime := 0

/-- The first byte of the locking script would complete the push, and the others would be a push of
another kind; the push stays cut short. Behind the whole one, what is no opcode is refused, and a datum
that is not the one pushed is found by its place in both scripts. -/
theorem verifyInput_boundary_cutPush :
    Program.decode ([0x01, 2, 0xaa] ++ [0x03, 2, 1, 9]) =
        .ok [.push .signature [0xaa, 0x03], .push .publicKey [9]] ∧
      cutPush.verifyInput 0 [0x03, 2, 1, 9] = .error (.decode (.truncated 2 1)) ∧
      cutPush.verifyInput 1 [0x42, 0] = .error (.decode (.unknownOpcode 0x42)) ∧
      cutPush.verifyInput 1 [0x03, 1, 8, 0x88, 0] = .ok (.rejected 2 .notEqual) ∧
      cutPush.verifyInput 2 [] = .error (.inputIndexOutOfRange 2 2) := by
  have short : Program.decode [0x01, 2, 0xaa] = .error (.truncated 2 1) :=
    Program.readOnto_of_error (by decide) rfl
  have unknown : Program.decode [0x42, 0] = .error (.unknownOpcode 0x42) :=
    Program.readOnto_of_error (by decide) rfl
  have datum : Program.decode [0x01, 1, 7] = .ok [.push .signature [7]] :=
    Program.decode_of_eq_toBytes rfl (by decide)
  have compare : Program.decode [0x03, 1, 8, 0x88, 0] =
      .ok [.push .publicKeyHash [8], .control .equalVerify] :=
    Program.decode_of_eq_toBytes rfl (by decide)
  have cut := ((verifyInput_boundary cutPush 0).2 _ rfl).1 _ short
  have behind := ((verifyInput_boundary cutPush 1).2 _ rfl).2 _ datum
  refine ⟨?_, ?_, ?_, ?_, ?_⟩
  · exact Program.decode_of_eq_toBytes rfl (by decide)
  · exact (cut _).1
  · exact (behind _).2.1 _ unknown
  · obtain ⟨whole, together, answer⟩ := (behind _).2.2 _ compare
    have both : Program.decode ([0x01, 1, 7] ++ [0x03, 1, 8, 0x88, 0]) =
        .ok [.push .signature [7], .push .publicKeyHash [8], .control .equalVerify] :=
      Program.decode_of_eq_toBytes rfl (by decide)
    cases together.symm.trans both
    exact answer.trans rfl
  · exact (verifyInput_boundary cutPush 2).1 (by decide) []

end Utxo.Transaction
