/-
**The verification of a transaction reports its first refused input.**

* `Refusal`: the error that stands for an answer which is no acceptance; `accepted_or_refusal`: every
  other answer has one.
* `Transaction.RefusedAt`: the least index whose input is refused, and the error that it is refused
  with.
* `Transaction.accepted_or_refusedAt`: a transaction has such an index, or all its inputs are accepted.
* `Transaction.verify_of_refusedAt`: its error is the answer. `RefusedAt.congr`: nothing behind it
  matters, neither locking scripts nor, as they are not signed, unlocking scripts.
* `Transaction.verify_firstRefused`: the answer to a transaction in full.
-/

import Utxo.Signature.Ecdsa
import Utxo.Proofs.Answer
import Utxo.Proofs.Ledger.Spending
import Utxo.Proofs.Script.Codec

namespace Utxo

/-! ### Answers that are no acceptance -/

/-- **The error that stands for an answer to an input**, unless it is accepted. -/
inductive Refusal : Except Error Verdict → Error → Prop
  | error (fault : Error) : Refusal (.error fault) fault
  | invalidSignature (position : Nat) :
      Refusal (.ok (.rejected position .signatureInvalid)) .signatureInvalid
  | rejected (position : Nat) (reason : RejectReason) (other : reason ≠ .signatureInvalid) :
      Refusal (.ok (.rejected position reason)) (.rejected position reason)

namespace Refusal

variable {answer : Except Error Verdict} {fault : Error}

theorem accepted_or_refusal (answer : Except Error Verdict) :
    answer = .ok .accepted ∨ ∃ fault, Refusal answer fault := by
  cases answer with
  | error fault => exact Or.inr ⟨fault, .error fault⟩
  | ok verdict =>
    cases verdict with
    | accepted => exact Or.inl rfl
    | rejected position reason =>
      by_cases signature : reason = .signatureInvalid
      · subst signature
        exact Or.inr ⟨_, .invalidSignature position⟩
      · exact Or.inr ⟨_, .rejected position reason signature⟩

/-- A refusal ends the check of an input in its error. -/
theorem bind_toResult (refusal : Refusal answer fault) :
    (answer >>= Verdict.toResult) = .error fault := by
  cases refusal with
  | error => rfl
  | invalidSignature position => rfl
  | rejected position reason other =>
    cases reason with
    | signatureInvalid => exact absurd rfl other
    | emptyProgram => rfl
    | notAPublicKey => rfl
    | notEqual => rfl

end Refusal

namespace Transaction

section AnyScheme

variable [SignatureScheme] {transaction : Transaction} {lockings : List Bytes} {index : Nat}
  {fault : Error}

/-! ### The first input that is refused -/

/-- **The input at `index` is refused, and it is the first**: those before it are accepted. -/
structure RefusedAt (transaction : Transaction) (lockings : List Bytes) (index : Nat)
    (fault : Error) : Prop where
  before : ∀ place < index, ∀ locking, lockings[place]? = some locking →
    transaction.verifyInput place locking = .ok .accepted
  here : ∃ locking, lockings[index]? = some locking ∧
    Refusal (transaction.verifyInput index locking) fault

theorem RefusedAt.lt_length (refused : transaction.RefusedAt lockings index fault) :
    index < lockings.length := by
  obtain ⟨locking, found, _⟩ := refused.here
  exact (List.getElem?_eq_some_iff.mp found).1

/-- One of the first `number` inputs is the first to be refused, or all of them are accepted. -/
theorem accepted_or_refusedAt_below (number : Nat) :
    (∀ place < number, ∀ locking, lockings[place]? = some locking →
      transaction.verifyInput place locking = .ok .accepted) ∨
      ∃ index fault, transaction.RefusedAt lockings index fault := by
  induction number with
  | zero => exact Or.inl fun place below => absurd below (Nat.not_lt_zero place)
  | succ number ih =>
    rw [Nat.forall_lt_succ_right]
    rcases ih with before | refused
    · by_cases accepted : ∀ locking, lockings[number]? = some locking →
          transaction.verifyInput number locking = .ok .accepted
      · exact Or.inl ⟨before, accepted⟩
      · obtain ⟨locking, refused⟩ := Classical.not_forall.mp accepted
        obtain ⟨found, refused⟩ := Classical.not_imp.mp refused
        rcases Refusal.accepted_or_refusal (transaction.verifyInput number locking) with
          accepted | ⟨fault, refusal⟩
        · exact absurd accepted refused
        · exact Or.inr ⟨number, fault, before, locking, found, refusal⟩
    · exact Or.inr refused

theorem accepted_or_refusedAt (transaction : Transaction) (lockings : List Bytes) :
    (∀ index locking, lockings[index]? = some locking →
      transaction.verifyInput index locking = .ok .accepted) ∨
      ∃ index fault, transaction.RefusedAt lockings index fault := by
  refine (accepted_or_refusedAt_below lockings.length).imp_left fun accepted index locking found => ?_
  exact accepted index (List.getElem?_eq_some_iff.mp found).1 locking found

/-! ### The answer to a transaction -/

theorem verify_of_length_ne (differ : lockings.length ≠ transaction.inputs.length) :
    transaction.verify lockings =
      .error (.lockingScriptCount transaction.inputs.length lockings.length) := if_pos differ

theorem verifyFrom_cons_of_refusal {locking : Bytes} {rest : List Bytes}
    (refusal : Refusal (transaction.verifyInput index locking) fault) :
    transaction.verifyFrom index (locking :: rest) = .error fault := by
  have ends := refusal.bind_toResult
  rw [verifyFrom]
  cases answer : transaction.verifyInput index locking with
  | error other =>
    rw [answer] at ends
    exact ends
  | ok verdict =>
    rw [answer] at ends
    change verdict.toResult = .error fault at ends
    show (verdict.toResult >>= _) = _
    rw [ends]
    rfl

/-- **The first input that is refused decides.** -/
theorem verify_of_refusedAt (each : lockings.length = transaction.inputs.length)
    (refused : transaction.RefusedAt lockings index fault) :
    transaction.verify lockings = .error fault := by
  obtain ⟨locking, found, refusal⟩ := refused.here
  obtain ⟨inside, here⟩ := List.getElem?_eq_some_iff.mp found
  have parts : lockings = lockings.take index ++ locking :: lockings.drop (index + 1) := by
    rw [← here, List.getElem_cons_drop, List.take_append_drop]
  have length : (lockings.take index).length = index := List.length_take_of_le (Nat.le_of_lt inside)
  have before : ∀ offset other, (lockings.take index)[offset]? = some other →
      transaction.verifyInput (0 + offset) other = .ok .accepted := by
    intro offset other taken
    have below : offset < index := by
      have := (List.getElem?_eq_some_iff.mp taken).1
      omega
    rw [List.getElem?_take_of_lt below] at taken
    rw [Nat.zero_add]
    exact refused.before offset below other taken
  rw [verify, if_neg (not_not_intro each), parts, verifyFrom_append_of_accepted _ _ 0 before, length,
    Nat.zero_add]
  exact verifyFrom_cons_of_refusal refusal

theorem verify_eq_ok_iff (each : lockings.length = transaction.inputs.length) :
    transaction.verify lockings = .ok () ↔ ∀ index locking, lockings[index]? = some locking →
      transaction.verifyInput index locking = .ok .accepted := by
  refine ⟨fun passed => ?_, verify_of_accepted each⟩
  rcases transaction.accepted_or_refusedAt lockings with accepted | ⟨index, fault, refused⟩
  · exact accepted
  · rw [verify_of_refusedAt each refused] at passed
    cases passed

theorem verify_eq_error_iff (each : lockings.length = transaction.inputs.length) :
    transaction.verify lockings = .error fault ↔
      ∃ index, transaction.RefusedAt lockings index fault := by
  have refuses : ∀ {fault}, (∃ index, transaction.RefusedAt lockings index fault) →
      transaction.verify lockings = .error fault := by
    rintro fault ⟨index, refused⟩
    exact verify_of_refusedAt each refused
  refine eq_error_iff_of_refused refuses ?_
  rcases transaction.accepted_or_refusedAt lockings with accepted | ⟨index, fault, refused⟩
  · exact Or.inl ⟨(), verify_of_accepted each accepted⟩
  · exact Or.inr ⟨fault, index, refused⟩

/-! ### What lies behind it does not matter -/

/-- Inputs that are equal have one answer in transactions that are signed alike. -/
theorem EqButUnlocking.verifyInput_eq {other : Transaction} (alike : transaction.EqButUnlocking other)
    {place : Nat} (inside : place < transaction.inputs.length)
    (same : other.inputs[place]? = transaction.inputs[place]?) (locking : Bytes) :
    other.verifyInput place locking = transaction.verifyInput place locking := by
  have found := List.getElem?_eq_getElem inside
  exact verifyInput_congr (same.trans found) found rfl alike.signingDigest_eq.symm locking

/-- The first refused input stays the first, with its error, whatever is put behind it. -/
theorem RefusedAt.congr (refused : transaction.RefusedAt lockings index fault)
    (each : lockings.length = transaction.inputs.length) {other : Transaction} {others : List Bytes}
    (alike : transaction.EqButUnlocking other)
    (sameInputs : ∀ place ≤ index, other.inputs[place]? = transaction.inputs[place]?)
    (sameLockings : ∀ place ≤ index, others[place]? = lockings[place]?) :
    other.RefusedAt others index fault := by
  have inside := refused.lt_length
  refine ⟨fun place below locking found => ?_, ?_⟩
  · rw [alike.verifyInput_eq (by omega) (sameInputs place (by omega))]
    rw [sameLockings place (by omega)] at found
    exact refused.before place below locking found
  · obtain ⟨locking, found, refusal⟩ := refused.here
    refine ⟨locking, (sameLockings index (by omega)).trans found, ?_⟩
    rw [alike.verifyInput_eq (by omega) (sameInputs index (by omega))]
    exact refusal

/-- **A transaction passes just where every input is accepted, and otherwise its first refused input
decides.** As many locking scripts as inputs have to be there, whatever these scripts are. No script
behind the first refused input has a part in the answer. -/
theorem verify_firstRefused (transaction : Transaction) (lockings : List Bytes) :
    (lockings.length ≠ transaction.inputs.length → transaction.verify lockings =
      .error (.lockingScriptCount transaction.inputs.length lockings.length)) ∧
    (lockings.length = transaction.inputs.length →
      (transaction.verify lockings = .ok () ↔ ∀ index locking, lockings[index]? = some locking →
        transaction.verifyInput index locking = .ok .accepted) ∧
      (∀ fault, transaction.verify lockings = .error fault ↔
        ∃ index, transaction.RefusedAt lockings index fault) ∧
      ∀ index fault, transaction.RefusedAt lockings index fault →
        ∀ (other : Transaction) (others : List Bytes), transaction.EqButUnlocking other →
          (∀ place ≤ index, other.inputs[place]? = transaction.inputs[place]?) →
          others.length = lockings.length →
          (∀ place ≤ index, others[place]? = lockings[place]?) →
            other.verify others = transaction.verify lockings) := by
  refine ⟨verify_of_length_ne, fun each => ⟨verify_eq_ok_iff each, fun fault => ?_, ?_⟩⟩
  · exact verify_eq_error_iff each
  · intro index fault refused other others alike sameInputs sameLength sameLockings
    have stays := refused.congr each alike sameInputs sameLockings
    have eachOther : others.length = other.inputs.length := by
      rw [sameLength, each, alike.length_eq]
    rw [verify_of_refusedAt eachOther stays, verify_of_refusedAt each refused]

end AnyScheme

/-! ### Three inputs, the second of them refused -/

/-- Unlocks with an empty key, with a datum, and with what is no program. -/
def threeInputs : Transaction where
  version := 1
  inputs := [⟨FixedBytes.zero 32, 0, ⟨[0x02, 0], by decide⟩, 0⟩,
    ⟨FixedBytes.zero 32, 1, ⟨[0x01, 1, 9], by decide⟩, 0⟩,
    ⟨FixedBytes.zero 32, 2, ⟨[0xff], by decide⟩, 0⟩]
  outputs := []
  lockTime := 0

/-- The second input is refused as its datum is not the one that is asked for, whatever the third one
holds and is locked with. -/
theorem verify_firstRefused_threeInputs :
    threeInputs.RefusedAt [[0x76, 0], [0x03, 1, 8, 0x88, 0], [0xac]] 1 (.rejected 2 .notEqual) ∧
      threeInputs.verify [[0x76, 0], [0x03, 1, 8, 0x88, 0], [0xac]] =
        .error (.rejected 2 .notEqual) ∧
      (threeInputs.withUnlocking 2 .empty).verify [[0x76, 0], [0x03, 1, 8, 0x88, 0], []] =
        threeInputs.verify [[0x76, 0], [0x03, 1, 8, 0x88, 0], [0xac]] := by
  have emptyKey : Program.decode [0x02, 0] = .ok [.push .publicKey []] :=
    Program.decode_of_eq_toBytes rfl (by decide)
  have duplicate : Program.decode [0x76, 0] = .ok [.control .duplicate] :=
    Program.decode_of_eq_toBytes rfl (by decide)
  have datum : Program.decode [0x01, 1, 9] = .ok [.push .signature [9]] :=
    Program.decode_of_eq_toBytes rfl (by decide)
  have compare : Program.decode [0x03, 1, 8, 0x88, 0] =
      .ok [.push .publicKeyHash [8], .control .equalVerify] := Program.decode_of_eq_toBytes rfl (by decide)
  have first : threeInputs.verifyInput 0 [0x76, 0] = .ok .accepted :=
    (verifyInput_of_decode rfl emptyKey duplicate).trans rfl
  have second : threeInputs.verifyInput 1 [0x03, 1, 8, 0x88, 0] = .ok (.rejected 2 .notEqual) :=
    (verifyInput_of_decode rfl datum compare).trans rfl
  have refused : threeInputs.RefusedAt [[0x76, 0], [0x03, 1, 8, 0x88, 0], [0xac]] 1
      (.rejected 2 .notEqual) := by
    refine ⟨fun place below locking found => ?_, [0x03, 1, 8, 0x88, 0], rfl, ?_⟩
    · obtain rfl : place = 0 := by omega
      cases found
      exact first
    · rw [second]
      exact .rejected 2 .notEqual (by decide)
  have answers := (verify_firstRefused threeInputs [[0x76, 0], [0x03, 1, 8, 0x88, 0], [0xac]]).2 rfl
  refine ⟨refused, (answers.2.1 _).mpr ⟨1, refused⟩, ?_⟩
  refine answers.2.2 1 _ refused _ _ (eqButUnlocking_withUnlocking ..) ?_ rfl ?_
  · rintro (_ | _ | place) below
    · rfl
    · rfl
    · omega
  · rintro (_ | _ | place) below
    · rfl
    · rfl
    · omega

end Transaction

end Utxo
