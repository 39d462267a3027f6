/-
**Paying to a key's digest: what unlocks it.**

The unlocking program is the spender's: it can be any program, and leave any stack.

* `PayToKeyHash.runs_locking_iff`: the locking program runs on the stacks with the key above a
  signature that verifies, and on no others.
* `PayToKeyHash.runFrom_locking_of_ne`, `PayToKeyHash.runFrom_locking_of_invalid`: how and where it says
  no to a stack with a key on top.
* `PayToKeyHash.verify_locking`: the three together, for every unlocking program.
* `PayToKeyHash.exists_encode_locking`, `PayToKeyHash.exists_encode_unlocking`: both programs fit a
  script, the unlocking one if its signature is short.
-/

import Utxo.Script.PayToKeyHash
import Utxo.Signature.Ecdsa
import Utxo.Proofs.Answer
import Utxo.Proofs.Script.Codec
import Utxo.Proofs.Script.Run

namespace Utxo.PayToKeyHash

open Program

theorem locking_ne_nil (keyHash : PubKeyHash) : locking keyHash ≠ [] := List.cons_ne_nil _ _

/-! ### Scripts -/

theorem length_toBytes_locking (keyHash : PubKeyHash) : (locking keyHash).toBytes.length = 30 := by
  have data := keyHash.length_toBytes
  simp [locking, Operand.toBytes, Operand.data, data]

theorem length_toBytes_unlocking (signature publicKey : Bytes) :
    (unlocking signature publicKey).toBytes.length = signature.length + publicKey.length + 4 := by
  simp [unlocking, Operand.toBytes, Operand.data]
  omega

/-- Every digest has a locking script. -/
theorem exists_encode_locking (keyHash : PubKeyHash) :
    ∃ script, Program.encode (locking keyHash) = .ok script := by
  refine exists_encode ?_
  rw [length_toBytes_locking]
  decide

/-- A key and a signature that is not too long for it have an unlocking script. -/
theorem exists_encode_unlocking {signature publicKey : Bytes}
    (short : signature.length + publicKey.length + 4 ≤ maxVarBytes) :
    ∃ script, Program.encode (unlocking signature publicKey) = .ok script := by
  refine exists_encode ?_
  rw [length_toBytes_unlocking]
  exact short

section AnyScheme

variable [SignatureScheme] {digest : Hash} {keyHash : PubKeyHash}

/-! ### The locking program, on any stack -/

/-- **The stacks that the locking program runs on.** -/
theorem runs_locking_iff {stack after : Stack} :
    Runs digest (locking keyHash) stack after ↔
      ∃ key signature, stack = .push .publicKey key :: .push .signature signature :: after ∧
        hash160 key = keyHash ∧ SignatureScheme.verify key signature digest = .ok true := by
  constructor
  · intro runs
    -- five steps, each of which has one way to pass
    rcases runs with _ | ⟨⟨⟩, runs⟩
    rcases runs with _ | ⟨⟨⟩, runs⟩
    rcases runs with _ | ⟨⟨⟩, runs⟩
    rcases runs with _ | ⟨⟨⟩, runs⟩
    rcases runs with _ | ⟨⟨⟩, ⟨⟩⟩
    rename_i key same signature verifies
    exact ⟨key, signature, rfl, FixedBytes.ext same.symm, verifies⟩
  · rintro ⟨key, signature, rfl, rfl, verifies⟩
    exact .cons (.duplicate ..) (.cons (.hash160 ..) (.cons (.push ..)
      (.cons (.equalVerify _ _ _ rfl) (.cons (.checkSig _ _ _ verifies) (.nil _)))))

/-- With a key on top, the digests of the key and of the lock are compared. -/
theorem runFrom_locking_of_keyed (position : Nat) (key : Bytes) (below : Stack) :
    runFrom digest position (locking keyHash) (.push .publicKey key :: below) =
      runFrom digest (position + 3) [.control .equalVerify, .control .checkSig]
        (.push .publicKeyHash keyHash.toBytes :: .push .publicKeyHash (hash160 key).toBytes ::
          .push .publicKey key :: below) := by
  have prepared : Runs digest
      [.control .duplicate, .control .hash160, .push .publicKeyHash keyHash.toBytes]
      (.push .publicKey key :: below)
      (.push .publicKeyHash keyHash.toBytes :: .push .publicKeyHash (hash160 key).toBytes ::
        .push .publicKey key :: below) :=
    .cons (.duplicate ..) (.cons (.hash160 ..) (.cons (.push ..) (.nil _)))
  exact runFrom_append_of_runs prepared position [.control .equalVerify, .control .checkSig]

/-- **Another key is refused** before any signature is looked at. -/
theorem runFrom_locking_of_ne {key : Bytes} (other : hash160 key ≠ keyHash) (position : Nat)
    (below : Stack) :
    ∃ left, runFrom digest position (locking keyHash) (.push .publicKey key :: below) =
      .ok (.rejected (position + 3) .notEqual) left := by
  let compared : Stack := .push .publicKeyHash keyHash.toBytes ::
    .push .publicKeyHash (hash160 key).toBytes :: .push .publicKey key :: below
  have refused : (Operand.control .equalVerify).execute digest compared =
      .ok (.fail .notEqual) compared := by
    refine (Control.compareTop_of_two ..).trans (if_neg ?_)
    exact fun same => other (FixedBytes.ext same.symm)
  rw [runFrom_locking_of_keyed]
  exact ⟨_, runFrom_cons_of_fail refused _ _⟩

/-- **A signature that does not verify is refused**, if the key is the one paid to. -/
theorem runFrom_locking_of_invalid {key signature : Bytes}
    (invalid : SignatureScheme.verify key signature digest = .ok false) (position : Nat)
    (below : Stack) :
    ∃ left, runFrom digest position (locking (hash160 key))
      (.push .publicKey key :: .push .signature signature :: below) =
        .ok (.rejected (position + 4) .signatureInvalid) left := by
  have refused : (Operand.control .checkSig).execute digest
      (.push .publicKey key :: .push .signature signature :: below) =
        .ok (.fail .signatureInvalid)
          (.push .publicKey key :: .push .signature signature :: below) := by
    refine (Control.checkTop_of_keyed ..).trans ?_
    rw [invalid]
  rw [runFrom_locking_of_keyed, runFrom_cons_of_step (.equalVerify _ _ _ rfl)]
  exact ⟨_, runFrom_cons_of_fail refused _ _⟩

/-! ### Behind any unlocking program -/

theorem runs_unlocking (signature key : Bytes) :
    Runs digest (unlocking signature key) [] [.push .publicKey key, .push .signature signature] :=
  .cons (.push ..) (.cons (.push ..) (.nil _))

/-- A key and a signature by it unlock what was paid to the key. -/
theorem verify_unlocking {key signature : Bytes}
    (verifies : SignatureScheme.verify key signature digest = .ok true) :
    Program.verify (unlocking signature key) (locking (hash160 key)) digest = .ok .accepted := by
  refine (verify_eq_accepted_iff (locking_ne_nil _)).mpr ⟨_, [], runs_unlocking signature key, ?_⟩
  exact runs_locking_iff.mpr ⟨key, signature, rfl, rfl, verifies⟩

/-- **Spending is sound and complete**, whatever the unlocking program. It is accepted just when it
asks for something, runs by itself, and leaves a key with the digest paid to above a signature by it.
When it runs by itself and leaves a key, another digest is refused where the digests are compared, and
a signature that does not verify where it is checked. -/
theorem verify_locking (digest : Hash) (keyHash : PubKeyHash) (unlocking : Program) :
    (Program.verify unlocking (locking keyHash) digest = .ok .accepted ↔
      unlocking ≠ [] ∧ ∃ key signature below,
        Program.evaluate digest unlocking [] =
          .ok .accepted (.push .publicKey key :: .push .signature signature :: below) ∧
        hash160 key = keyHash ∧ SignatureScheme.verify key signature digest = .ok true) ∧
    ∀ key below,
      Program.evaluate digest unlocking [] = .ok .accepted (.push .publicKey key :: below) →
        (hash160 key ≠ keyHash → Program.verify unlocking (locking keyHash) digest =
          .ok (.rejected (unlocking.length + 3) .notEqual)) ∧
        ∀ signature rest, below = .push .signature signature :: rest → hash160 key = keyHash →
          SignatureScheme.verify key signature digest = .ok false →
            Program.verify unlocking (locking keyHash) digest =
              .ok (.rejected (unlocking.length + 4) .signatureInvalid) := by
  refine ⟨?_, fun key below accepted => ⟨fun other => ?_, ?_⟩⟩
  · rw [verify_eq_accepted_iff (locking_ne_nil keyHash)]
    constructor
    · rintro ⟨left, after, front, back⟩
      obtain ⟨key, signature, rfl, paid, verifies⟩ := runs_locking_iff.mp back
      have asks : unlocking ≠ [] := by
        rintro rfl
        cases front
      exact ⟨asks, key, signature, after, evaluate_eq_accepted_iff.mpr ⟨asks, front⟩, paid, verifies⟩
    · rintro ⟨_, key, signature, below, accepted, paid, verifies⟩
      have front := (evaluate_eq_accepted_iff.mp accepted).2
      exact ⟨_, below, front, runs_locking_iff.mpr ⟨key, signature, rfl, paid, verifies⟩⟩
  · have runs := (evaluate_eq_accepted_iff.mp accepted).2
    obtain ⟨left, refused⟩ := runFrom_locking_of_ne other unlocking.length below
    exact verify_eq_ok_of_runs runs (locking_ne_nil keyHash) refused
  · rintro signature rest rfl rfl invalid
    have runs := (evaluate_eq_accepted_iff.mp accepted).2
    obtain ⟨left, refused⟩ := runFrom_locking_of_invalid invalid unlocking.length rest
    exact verify_eq_ok_of_runs runs (locking_ne_nil _) refused

end AnyScheme

/-! ### The generator as a key -/

/-- The generator as a public key. -/
def generatorKey : Bytes := Point.generator.compress.toBytes

/-- A well-formed signature that verifies nothing. -/
def nullSignature : Bytes := Der.encode ⟨0, 0⟩

theorem verify_nullSignature :
    SignatureScheme.verify generatorKey nullSignature (FixedBytes.zero 32) = .ok false := by
  have refused : (SignatureScheme.verify generatorKey nullSignature (FixedBytes.zero 32)).toOption =
      some false := by
    decide +kernel
  exact toOption_eq_some_iff.mp refused

/-- The zero digest signed for that key, with the generator for a nonce. -/
def generatorSignature : Bytes := Der.encode ⟨Point.generator.x, Point.generator.x⟩

theorem verify_generatorSignature :
    SignatureScheme.verify generatorKey generatorSignature (FixedBytes.zero 32) = .ok true := by
  have accepted :
      (SignatureScheme.verify generatorKey generatorSignature (FixedBytes.zero 32)).toOption =
        some true := by
    decide +kernel
  exact toOption_eq_some_iff.mp accepted

/-- The same spending is refused at two places, by what was paid to. -/
theorem verify_locking_generatorKey :
    Program.verify (unlocking nullSignature generatorKey) (locking (FixedBytes.zero 20))
        (FixedBytes.zero 32) = .ok (.rejected 5 .notEqual) ∧
      Program.verify (unlocking nullSignature generatorKey) (locking (hash160 generatorKey))
        (FixedBytes.zero 32) = .ok (.rejected 6 .signatureInvalid) := by
  have accepted : Program.evaluate (FixedBytes.zero 32) (unlocking nullSignature generatorKey) [] =
      .ok .accepted [.push .publicKey generatorKey, .push .signature nullSignature] := rfl
  refine ⟨?_, ?_⟩
  · have other : hash160 generatorKey ≠ FixedBytes.zero 20 := by
      decide +kernel
    exact ((verify_locking _ _ _).2 generatorKey _ accepted).1 other
  · exact ((verify_locking _ _ _).2 generatorKey _ accepted).2 nullSignature [] rfl rfl
      verify_nullSignature

end Utxo.PayToKeyHash
