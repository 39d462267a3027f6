/-
**A signature and its mirror image spend alike.**

The mirror image of a signature has the negative of its second number. One of the two numbers lies in the
upper half of the range and is brought to the lower half before it is used, so that the two signatures
verify alike; their bytes, and those of the transactions that hold them, differ.

* `Signature.normalize_mirror`: both are brought to one signature.
* `Ecdsa.verify_encode`: of the bytes of a signature, only that one has a part in the answer.
* `PayToKeyHash.verify_unlocking_eq`: the answer to a key and a signature, whatever they are;
  `verify_unlocking_congr`: so signatures that verify alike are answered alike.
* `Transaction.eq_of_encode_withUnlocking_eq`: the bytes of a transaction tell each of its scripts.
* `Transaction.verifyInput_mirror`: the two spendings, side by side.
-/

import Utxo.Proofs.Ledger.Spending
import Utxo.Proofs.Script.Halting
import Utxo.Proofs.Script.PayToKeyHash
import Utxo.Proofs.Signature.Der

namespace Utxo

open Curve

/-! ### Mirror images -/

theorem Curve.order_odd : order % 2 = 1 := by decide

namespace Signature

variable {signature : Signature}

/-- The signature with the negative of its second number. -/
def mirror (signature : Signature) : Signature := ⟨signature.r, order - signature.s⟩

theorem Reduced.mirror (reduced : signature.Reduced) (positive : 0 < signature.s) :
    signature.mirror.Reduced :=
  ⟨reduced.r_lt, Nat.sub_lt (Nat.zero_lt_of_lt reduced.s_lt) positive⟩

/-- No number is its own negative, as the order is odd. -/
theorem mirror_ne (reduced : signature.Reduced) : signature.mirror ≠ signature := by
  intro same
  have number : order - signature.s = signature.s := congrArg Signature.s same
  have odd := order_odd
  have below := reduced.s_lt
  omega

/-- **A signature and its mirror image are brought to one signature.** -/
theorem normalize_mirror (reduced : signature.Reduced) :
    signature.mirror.normalize = signature.normalize := by
  have odd := order_odd
  have below := reduced.s_lt
  by_cases upper : order / 2 < signature.s
  · have lower : ¬ order / 2 < order - signature.s := by omega
    rw [normalize, mirror, if_neg lower, normalize, if_pos upper]
  · have other : order / 2 < order - signature.s := by omega
    rw [normalize, mirror, if_pos other, normalize, if_neg upper, Nat.sub_sub_self (Nat.le_of_lt below)]

end Signature

namespace Ecdsa

variable {signature : Signature}

/-- The key is parsed first; of the signature's bytes, the signature in the lower half decides. -/
theorem verify_encode (reduced : signature.Reduced) (key : Bytes) (digest : Hash) :
    verify key (Der.encode signature) digest =
      (parseKey key).map fun point => verifies point signature.normalize digest := by
  have parsed : parseSignature (Der.encode signature) = .ok signature := by
    rw [parseSignature, Der.decode?_encode reduced]
  rw [verify, parsed]
  cases parseKey key <;> rfl

/-- **A signature and its mirror image verify alike**, by any key and of any digest. -/
theorem verify_mirror (reduced : signature.Reduced) (positive : 0 < signature.s) (key : Bytes)
    (digest : Hash) :
    verify key (Der.encode signature.mirror) digest = verify key (Der.encode signature) digest := by
  rw [verify_encode (reduced.mirror positive), verify_encode reduced,
    Signature.normalize_mirror reduced]

end Ecdsa

/-! ### Paying to a key's digest -/

namespace PayToKeyHash

open Program

section AnyScheme

variable [SignatureScheme]

/-- **The answer to a key and a signature.** The digest of the key is looked at first. -/
theorem verify_unlocking_eq (signature key : Bytes) (keyHash : PubKeyHash) (digest : Hash) :
    Program.verify (unlocking signature key) (locking keyHash) digest =
      if hash160 key = keyHash then
        match SignatureScheme.verify key signature digest with
        | .ok true => .ok .accepted
        | .ok false => .ok (.rejected 6 .signatureInvalid)
        | .error fault => .error (.script (.signature fault))
      else .ok (.rejected 5 .notEqual) := by
  have compared : evaluate digest (unlocking signature key ++ locking keyHash) [] =
      runFrom digest 5 [.control .equalVerify, .control .checkSig]
        [.push .publicKeyHash keyHash.toBytes, .push .publicKeyHash (hash160 key).toBytes,
          .push .publicKey key, .push .signature signature] := by
    rw [evaluate_of_ne_nil (append_ne_nil _ (locking_ne_nil keyHash)),
      runFrom_append_of_runs (runs_unlocking signature key)]
    exact runFrom_locking_of_keyed 2 key [.push .signature signature]
  rw [Program.verify, answer, EStateM.run, compared]
  by_cases paid : hash160 key = keyHash
  · subst paid
    rw [if_pos rfl, runFrom_cons_of_step (.equalVerify _ _ _ rfl)]
    cases verdict : SignatureScheme.verify key signature digest with
    | error fault => rw [runFrom_cons_of_halts (.checkMalformed _ _ _ _ verdict)]; rfl
    | ok verifies =>
      cases verifies with
      | false => rw [runFrom_cons_of_halts (.checkInvalid _ _ _ verdict)]; rfl
      | true => rw [runFrom_cons_of_step (.checkSig _ _ _ verdict)]; rfl
  · have differ : keyHash.toBytes ≠ (hash160 key).toBytes :=
      fun same => paid (FixedBytes.ext same.symm)
    rw [if_neg paid, runFrom_cons_of_halts (.compareUnequal (.push .publicKeyHash keyHash.toBytes)
      (.push .publicKeyHash (hash160 key).toBytes) _ differ)]
    rfl

/-- Signatures that verify alike are answered alike. -/
theorem verify_unlocking_congr {first second key : Bytes} {digest : Hash}
    (alike : SignatureScheme.verify key first digest = SignatureScheme.verify key second digest)
    (keyHash : PubKeyHash) :
    Program.verify (unlocking first key) (locking keyHash) digest =
      Program.verify (unlocking second key) (locking keyHash) digest := by
  rw [verify_unlocking_eq, verify_unlocking_eq, alike]

end AnyScheme

/-- A script tells the signature that it holds. -/
theorem signature_eq_of_encode {first second key : Bytes} {script : VarBytes}
    (one : Program.encode (unlocking first key) = .ok script)
    (other : Program.encode (unlocking second key) = .ok script) : first = second := by
  have same := decode_of_encode one
  rw [decode_of_encode other] at same
  have programs := Except.ok.inj same
  simp only [unlocking, List.cons.injEq, Operand.push.injEq] at programs
  exact programs.1.2.symm

end PayToKeyHash

/-! ### Transactions that hold the two -/

namespace Transaction

variable {transaction : Transaction} {index : Nat} {first second : VarBytes}

/-- **The bytes of a transaction tell each of its unlocking scripts**, whatever surrounds it. -/
theorem eq_of_encode_withUnlocking_eq (inside : index < transaction.inputs.length)
    (same : (transaction.withUnlocking index first).encode =
      (transaction.withUnlocking index second).encode) : first = second := by
  simp only [encode, Wire.encodeList, withUnlocking, List.modify_eq_take_cons_drop inside,
    List.length_append, List.length_cons, List.flatMap_append, List.flatMap_cons,
    List.append_assoc] at same
  -- what stands before the script is equal, and so is what stands behind it
  have inputs := List.append_cancel_left (List.append_cancel_left (List.append_cancel_left same))
  have scripts := List.append_cancel_right inputs
  simp only [Wire.encode, TxInput.encode, List.append_assoc] at scripts
  have fields := List.append_cancel_left (List.append_cancel_left scripts)
  exact VarBytes.ext (List.cons.inj (List.append_cancel_right fields)).2

/-- An input answers a script by the program in it. -/
theorem verifyInput_withUnlocking [SignatureScheme] {script locking : VarBytes} {unlock lock : Program}
    (inside : index < transaction.inputs.length) (front : Program.encode unlock = .ok script)
    (back : Program.encode lock = .ok locking) :
    (transaction.withUnlocking index script).verifyInput index locking.toBytes =
      Program.verify unlock lock transaction.signingDigest := by
  have found := transaction.getElem?_withUnlocking_self index script
  rw [List.getElem?_eq_getElem inside, Option.map_some] at found
  rw [verifyInput_of_decode found (Program.decode_of_encode front) (Program.decode_of_encode back),
    signingDigest_withUnlocking]

/-- **A signature and its mirror image are interchangeable.** They verify alike: by every key, of every
digest, with the same error if the key is none. So the two unlocking scripts of a key and either of them,
which differ, have one answer at every input of every transaction, whatever key was paid to; but the
transactions differ in their bytes. -/
theorem verifyInput_mirror {r s : Nat} (rSmall : r < order) (positive : 0 < s) (sSmall : s < order) :
    (∀ key digest, Ecdsa.verify key (Der.encode ⟨r, s⟩) digest =
      Ecdsa.verify key (Der.encode ⟨r, order - s⟩) digest) ∧
    ∀ key : Bytes, key.length = 33 → ∃ script mirrored : VarBytes,
      Program.encode (PayToKeyHash.unlocking (Der.encode ⟨r, s⟩) key) = .ok script ∧
      Program.encode (PayToKeyHash.unlocking (Der.encode ⟨r, order - s⟩) key) = .ok mirrored ∧
      ∀ (transaction : Transaction) (index : Nat) (keyHash : PubKeyHash), ∃ locking,
        Program.encode (PayToKeyHash.locking keyHash) = .ok locking ∧
        (transaction.withUnlocking index script).verifyInput index locking.toBytes =
          (transaction.withUnlocking index mirrored).verifyInput index locking.toBytes ∧
        (index < transaction.inputs.length → (transaction.withUnlocking index script).encode ≠
          (transaction.withUnlocking index mirrored).encode) := by
  have reduced : Signature.Reduced ⟨r, s⟩ := ⟨rSmall, sSmall⟩
  have mirrorReduced : Signature.Reduced ⟨r, order - s⟩ := reduced.mirror positive
  have alike (key : Bytes) (digest : Hash) : Ecdsa.verify key (Der.encode ⟨r, s⟩) digest =
      Ecdsa.verify key (Der.encode ⟨r, order - s⟩) digest :=
    (Ecdsa.verify_mirror reduced positive key digest).symm
  refine ⟨alike, fun key length => ?_⟩
  have fits {signature : Signature} (reduced : signature.Reduced) :
      (Der.encode signature).length + key.length + 4 ≤ maxVarBytes := by
    have short := Der.length_encode_le reduced
    have bound : maxVarBytes = 255 := rfl
    omega
  obtain ⟨script, written⟩ := PayToKeyHash.exists_encode_unlocking (fits reduced)
  obtain ⟨mirrored, other⟩ := PayToKeyHash.exists_encode_unlocking (fits mirrorReduced)
  have apart : script ≠ mirrored := by
    rintro rfl
    have same := PayToKeyHash.signature_eq_of_encode written other
    exact Signature.mirror_ne reduced (Der.encode_inj reduced mirrorReduced same).symm
  refine ⟨script, mirrored, written, other, fun transaction index keyHash => ?_⟩
  obtain ⟨locking, lock⟩ := PayToKeyHash.exists_encode_locking keyHash
  refine ⟨locking, lock, ?_, fun inside same => apart (eq_of_encode_withUnlocking_eq inside same)⟩
  by_cases inside : index < transaction.inputs.length
  · rw [verifyInput_withUnlocking inside written lock, verifyInput_withUnlocking inside other lock]
    exact PayToKeyHash.verify_unlocking_congr (alike key _) keyHash
  · have outside : transaction.inputs.length ≤ index := Nat.not_lt.mp inside
    rw [withUnlocking_of_le _ _ _ outside, withUnlocking_of_le _ _ _ outside]

/-- The signature of the zero digest whose numbers are both the generator's abscissa, in the lower half,
and its mirror image in the upper half: both verify, and either unlocks an input of two. -/
theorem verifyInput_mirror_generator :
    Ecdsa.verify PayToKeyHash.generatorKey
        (Der.encode ⟨Point.generator.x, order - Point.generator.x⟩) (FixedBytes.zero 32) = .ok true ∧
      ∃ script mirrored : VarBytes, (twoInputs.withUnlocking 1 script).encode ≠
        (twoInputs.withUnlocking 1 mirrored).encode := by
  have alike := verifyInput_mirror (r := Point.generator.x) (s := Point.generator.x) (by decide) (by decide)
    (by decide)
  refine ⟨(alike.1 _ _).symm.trans PayToKeyHash.verify_generatorSignature, ?_⟩
  obtain ⟨script, mirrored, -, -, spent⟩ := alike.2 PayToKeyHash.generatorKey (by decide)
  obtain ⟨_, -, -, differ⟩ := spent twoInputs 1 (hash160 PayToKeyHash.generatorKey)
  exact ⟨script, mirrored, differ (by decide)⟩

end Transaction

end Utxo
