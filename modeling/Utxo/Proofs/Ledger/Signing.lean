/-
**Signing, then verifying, in any order.**

A transaction is signed input by input: by any keys, in any order, an input more than once. Unlocking
scripts are not signed, so the digest that the earlier signatures were made of stays what it was.

* `SignatureScheme.Correct`: all that is asked of the signatures.
* `Transaction.lastSigner?`: the key that an input was signed with last.
* `Transaction.Signed`: what signings make of a transaction; `Signed.cons` puts them together.
* `Transaction.exists_signed`: every signing succeeds, by induction on them.
* `Transaction.verify_signAll`: what was signed last unlocks, for each input and for all of them.
-/

import Utxo.Signature.Ecdsa
import Utxo.Proofs.Key.Derivation
import Utxo.Proofs.Ledger.Spending
import Utxo.Proofs.Script.PayToKeyHash

namespace Utxo

/-! ### What is asked of the signatures -/

/-- The length that no signature exceeds. -/
def maxSignatureLength : Nat := 72

/-- **What is asked of a scheme**: signatures are short, and each of them verifies by the public key of its
secret key. -/
structure SignatureScheme.Correct [SignatureScheme] : Prop where
  short : ∀ (key : Key) (digest : Hash), (key.sign digest).length ≤ maxSignatureLength
  verifies : ∀ (secret : SecretKey) (digest : Hash),
    SignatureScheme.verify (SignatureScheme.publicKey secret).toBytes (SignatureScheme.sign secret digest)
      digest = .ok true

namespace SignatureScheme

/-- Whether a signature of the scheme is short and verifies. -/
def delivers (scheme : SignatureScheme) (secret : SecretKey) (digest : Hash) : Bool :=
  let signature := scheme.sign secret digest
  let answer := scheme.verify (scheme.publicKey secret).toBytes signature digest
  signature.length ≤ maxSignatureLength && answer.toOption == some true

theorem delivers_iff {scheme : SignatureScheme} {secret : SecretKey} {digest : Hash} :
    scheme.delivers secret digest = true ↔
      (scheme.sign secret digest).length ≤ maxSignatureLength ∧
        scheme.verify (scheme.publicKey secret).toBytes (scheme.sign secret digest) digest =
          .ok true := by
  rw [delivers, Bool.and_eq_true, decide_eq_true_eq, beq_iff_eq]
  exact and_congr_right fun _ => toOption_eq_some_iff

/-- The scheme with one signature more, the empty one, which always verifies. It stands in where the
scheme's own is too long or does not verify. -/
@[reducible] def guarded (scheme : SignatureScheme) : SignatureScheme where
  publicKey := scheme.publicKey
  sign secret digest := if scheme.delivers secret digest then scheme.sign secret digest else []
  verify key signature digest :=
    if signature = [] then .ok true else scheme.verify key signature digest

theorem guarded_correct (scheme : SignatureScheme) : @Correct scheme.guarded := by
  refine @Correct.mk scheme.guarded (fun key digest => ?_) fun secret digest => ?_
  · show (if scheme.delivers key.secret digest then scheme.sign key.secret digest else []).length ≤ _
    split
    next delivers => exact (delivers_iff.mp delivers).1
    next => exact Nat.zero_le _
  · show @verify scheme.guarded (scheme.publicKey secret).toBytes
      (if scheme.delivers secret digest then scheme.sign secret digest else []) digest = _
    split
    next delivers =>
      have verifies := (delivers_iff.mp delivers).2
      show (if scheme.sign secret digest = [] then .ok true else scheme.verify _ _ _) = _
      rw [verifies, ite_self]
    next => rfl

/-- The guarded scheme has the same public keys, so the same keys. -/
theorem consistent_guarded {scheme : SignatureScheme} {key : Key} (consistent : @Key.Consistent scheme key) :
    @Key.Consistent scheme.guarded key :=
  @Key.Consistent.mk scheme.guarded key consistent.publicKey consistent.publicKeyHash
    consistent.addressBytes consistent.addressText

end SignatureScheme

/-! ### Signings, one after another -/

/-- The input is unlocked by a key and its signature of the digest. -/
def TxInput.SignedBy [SignatureScheme] (input : TxInput) (key : Key) (digest : Hash) : Prop :=
  Program.encode (PayToKeyHash.unlocking (key.sign digest) key.publicKey.toBytes) =
    .ok input.unlocking

namespace Transaction

section AnyScheme

variable [SignatureScheme] {transaction signed : Transaction}

/-- An input, and the key to sign it with, one with nothing left over from another key. -/
structure Signing where
  index : Nat
  key : Key
  consistent : key.Consistent

/-- The key that an input was signed with last, if it was signed. -/
def lastSigner? (index : Nat) : List Signing → Option Key
  | [] => none
  | signing :: later =>
    (lastSigner? index later).or (if signing.index = index then some signing.key else none)

theorem lastSigner?_singleton (index : Nat) (signing : Signing) :
    lastSigner? index [signing] = if signing.index = index then some signing.key else none := rfl

/-- The first signing counts where no later one does. -/
theorem lastSigner?_cons (index : Nat) (signing : Signing) (later : List Signing) :
    lastSigner? index (signing :: later) =
      (lastSigner? index later).or (lastSigner? index [signing]) := rfl

theorem consistent_of_lastSigner? {index : Nat} {key : Key} {signings : List Signing}
    (last : lastSigner? index signings = some key) : key.Consistent := by
  induction signings with
  | nil => cases last
  | cons signing later ih =>
    rw [lastSigner?_cons, Option.or_eq_some_iff] at last
    rcases last with last | ⟨-, last⟩
    · exact ih last
    · rw [lastSigner?_singleton] at last
      split at last
      next =>
        cases last
        exact signing.consistent
      next => cases last

/-- Signs one input after another. -/
def signAll (transaction : Transaction) : List Signing → Except Error Transaction
  | [] => .ok transaction
  | signing :: later => do (← transaction.signInput signing.index signing.key).signAll later

/-! ### What signings leave -/

/-- **What signings make of a transaction.** Inputs that were signed are unlocked by their last key,
all others are as they were, and the digest is as it was. -/
structure Signed (transaction : Transaction) (signings : List Signing) (signed : Transaction) :
    Prop where
  length_eq : signed.inputs.length = transaction.inputs.length
  digest_eq : signed.signingDigest = transaction.signingDigest
  unlocked : ∀ index key, lastSigner? index signings = some key →
    ∃ input, signed.inputs[index]? = some input ∧ input.SignedBy key transaction.signingDigest
  kept : ∀ index, lastSigner? index signings = none →
    signed.inputs[index]? = transaction.inputs[index]?

theorem Signed.nil (transaction : Transaction) : Signed transaction [] transaction where
  length_eq := rfl
  digest_eq := rfl
  unlocked := by
    rintro index key ⟨⟩
  kept _ _ := rfl

/-- A signing leaves earlier signatures valid, as the digest stays. -/
theorem Signed.cons {between : Transaction} {signing : Signing} {later : List Signing}
    (first : Signed transaction [signing] between) (rest : Signed between later signed) :
    Signed transaction (signing :: later) signed where
  length_eq := rest.length_eq.trans first.length_eq
  digest_eq := rest.digest_eq.trans first.digest_eq
  unlocked := by
    intro index key last
    rw [lastSigner?_cons, Option.or_eq_some_iff] at last
    rcases last with last | ⟨untouched, last⟩
    -- a later signing is of the digest between, which is the digest before
    · obtain ⟨input, found, signedBy⟩ := rest.unlocked index key last
      rw [first.digest_eq] at signedBy
      exact ⟨input, found, signedBy⟩
    · obtain ⟨input, found, signedBy⟩ := first.unlocked index key last
      exact ⟨input, (rest.kept index untouched).trans found, signedBy⟩
  kept := by
    intro index untouched
    rw [lastSigner?_cons, Option.or_eq_none_iff] at untouched
    exact (rest.kept index untouched.1).trans (first.kept index untouched.2)

/-- An unlocking script that a key made is what one signing writes. -/
theorem signed_withUnlocking {signing : Signing} {script : VarBytes}
    (inRange : signing.index < transaction.inputs.length)
    (encoded : Program.encode (PayToKeyHash.unlocking (transaction.signature signing.key)
      signing.key.publicKey.toBytes) = .ok script) :
    Signed transaction [signing] (transaction.withUnlocking signing.index script) where
  length_eq := length_inputs_withUnlocking ..
  digest_eq := signingDigest_withUnlocking ..
  unlocked := by
    intro index key last
    rw [lastSigner?_singleton] at last
    split at last
    next same =>
      cases last
      subst same
      rw [getElem?_withUnlocking_self, List.getElem?_eq_getElem inRange]
      exact ⟨_, rfl, encoded⟩
    next => cases last
  kept := by
    intro index untouched
    rw [lastSigner?_singleton] at untouched
    split at untouched
    next => cases untouched
    next apart => exact getElem?_withUnlocking_of_ne _ _ _ apart

/-! ### Every signing succeeds -/

/-- A short signature and a key fit a script. -/
theorem exists_unlocking {key : Key}
    (short : (transaction.signature key).length ≤ maxSignatureLength) :
    ∃ script, Program.encode (PayToKeyHash.unlocking (transaction.signature key)
      key.publicKey.toBytes) = .ok script := by
  have fits : (transaction.signature key).length + key.publicKey.toBytes.length + 4 ≤ maxVarBytes := by
    rw [FixedBytes.length_toBytes]
    simp only [maxSignatureLength, publicKeyLength, Point.compressedLength, maxVarBytes] at short ⊢
    omega
  exact PayToKeyHash.exists_encode_unlocking fits

/-- One signing succeeds. -/
theorem exists_signInput (correct : SignatureScheme.Correct) {signing : Signing}
    (inRange : signing.index < transaction.inputs.length) :
    ∃ signed, transaction.signInput signing.index signing.key = .ok signed ∧
      Signed transaction [signing] signed := by
  obtain ⟨script, encoded⟩ := exists_unlocking (correct.short signing.key transaction.signingDigest)
  have made := signInput_of_encode (List.getElem?_eq_getElem inRange) encoded
  exact ⟨_, made, signed_withUnlocking inRange encoded⟩

/-- **Every signing succeeds**, and so do all, one after another. -/
theorem exists_signed (correct : SignatureScheme.Correct) (signings : List Signing)
    (transaction : Transaction)
    (inRange : ∀ signing ∈ signings, signing.index < transaction.inputs.length) :
    ∃ signed, transaction.signAll signings = .ok signed ∧ Signed transaction signings signed := by
  induction signings generalizing transaction with
  | nil => exact ⟨transaction, rfl, .nil transaction⟩
  | cons signing later ih =>
    obtain ⟨between, made, first⟩ := exists_signInput correct (inRange signing List.mem_cons_self)
    obtain ⟨signed, done, rest⟩ := ih between fun other member => by
      rw [first.length_eq]
      exact inRange other (List.mem_cons_of_mem _ member)
    refine ⟨signed, ?_, first.cons rest⟩
    rw [signAll, made]
    exact done

/-! ### What was signed is accepted -/

/-- An input that a key unlocks spends what was paid to the key. -/
theorem verifyInput_of_signedBy (correct : SignatureScheme.Correct) {index : Nat} {input : TxInput}
    {key : Key} (consistent : key.Consistent) {script : VarBytes}
    (found : transaction.inputs[index]? = some input)
    (signedBy : input.SignedBy key transaction.signingDigest)
    (paid : Program.encode (PayToKeyHash.locking key.publicKeyHash) = .ok script) :
    transaction.verifyInput index script.toBytes = .ok .accepted := by
  rw [verifyInput_of_decode found (Program.decode_of_encode signedBy)
    (Program.decode_of_encode paid), consistent.publicKeyHash]
  have verifies := correct.verifies key.secret transaction.signingDigest
  rw [← consistent.publicKey] at verifies
  exact PayToKeyHash.verify_unlocking verifies

theorem Signed.verifyInput (correct : SignatureScheme.Correct) {signings : List Signing}
    (made : Signed transaction signings signed) {index : Nat} {key : Key} {script : VarBytes}
    (last : lastSigner? index signings = some key)
    (paid : Program.encode (PayToKeyHash.locking key.publicKeyHash) = .ok script) :
    signed.verifyInput index script.toBytes = .ok .accepted := by
  obtain ⟨input, found, signedBy⟩ := made.unlocked index key last
  rw [← made.digest_eq] at signedBy
  exact verifyInput_of_signedBy correct (consistent_of_lastSigner? last) found signedBy paid

/-- **What is signed verifies, in any order of signing.** Any signings of inputs that there are
succeed. Each input that was signed then spends what was paid to the last key that signed it. And
where every input was signed, the transaction verifies against what was paid to these keys. -/
theorem verify_signAll (correct : SignatureScheme.Correct) (transaction : Transaction)
    (signings : List Signing)
    (inRange : ∀ signing ∈ signings, signing.index < transaction.inputs.length) :
    ∃ signed, transaction.signAll signings = .ok signed ∧
      (∀ index key, lastSigner? index signings = some key →
        ∃ script, Program.encode (PayToKeyHash.locking key.publicKeyHash) = .ok script ∧
          signed.verifyInput index script.toBytes = .ok .accepted) ∧
      ∀ scripts : List VarBytes, scripts.length = transaction.inputs.length →
        (∀ index script, scripts[index]? = some script →
          ∃ key, lastSigner? index signings = some key ∧
            Program.encode (PayToKeyHash.locking key.publicKeyHash) = .ok script) →
          signed.verify (scripts.map VarBytes.toBytes) = .ok () := by
  obtain ⟨signed, done, made⟩ := exists_signed correct signings transaction inRange
  refine ⟨signed, done, ?_, ?_⟩
  · intro index key last
    obtain ⟨script, paid⟩ := PayToKeyHash.exists_encode_locking key.publicKeyHash
    exact ⟨script, paid, made.verifyInput correct last paid⟩
  · intro scripts each paidTo
    refine verify_of_accepted ?_ fun index locking found => ?_
    · rw [List.length_map, each, made.length_eq]
    · rw [List.getElem?_map] at found
      obtain ⟨script, listed, rfl⟩ := Option.map_eq_some_iff.mp found
      obtain ⟨key, last, paid⟩ := paidTo index script listed
      exact made.verifyInput correct last paid

end AnyScheme

/-! ### Two inputs, one of them signed twice -/

/-- Spends two outputs and makes none. -/
def pair : Transaction where
  version := 1
  inputs := [⟨FixedBytes.zero 32, 0, .empty, 0⟩, ⟨FixedBytes.zero 32, 1, .empty, 0⟩]
  outputs := []
  lockTime := 0

/-- The key of the least secret. -/
def firstKey : Key := .ofSecret ⟨1, by decide, by decide⟩

/-- The key of the next secret. -/
def secondKey : Key := .ofSecret ⟨2, by decide, by decide⟩

/-- The first key signs both inputs, and the second one the first input again. -/
def pairSignings : List Signing :=
  [⟨0, firstKey, Key.consistent_ofSecret _⟩, ⟨1, firstKey, Key.consistent_ofSecret _⟩,
    ⟨0, secondKey, Key.consistent_ofSecret _⟩]

/-- The same signing by the guarded scheme. -/
def Signing.guarded {scheme : SignatureScheme} (signing : @Signing scheme) : @Signing scheme.guarded :=
  @Signing.mk scheme.guarded signing.index signing.key
    (SignatureScheme.consistent_guarded signing.consistent)

/-- The guarded scheme signs the pair with both keys as `secp256k1` does, and what the two signed last
verifies. -/
theorem verify_signAll_pair :
    (secp256k1.delivers firstKey.secret pair.signingDigest = true ∧
      secp256k1.delivers secondKey.secret pair.signingDigest = true) ∧
    ∃ signed front back,
      @signAll secp256k1.guarded pair (pairSignings.map Signing.guarded) = .ok signed ∧
      Program.encode (PayToKeyHash.locking secondKey.publicKeyHash) = .ok front ∧
      Program.encode (PayToKeyHash.locking firstKey.publicKeyHash) = .ok back ∧
      @verify secp256k1.guarded signed [front.toBytes, back.toBytes] = .ok () := by
  refine ⟨⟨by decide +kernel, by decide +kernel⟩, ?_⟩
  obtain ⟨signed, done, each, all⟩ := @verify_signAll secp256k1.guarded
    (SignatureScheme.guarded_correct secp256k1) pair (pairSignings.map Signing.guarded)
    (by simp [pairSignings, Signing.guarded, pair])
  obtain ⟨front, paidFront, _⟩ := each 0 secondKey rfl
  obtain ⟨back, paidBack, _⟩ := each 1 firstKey rfl
  refine ⟨signed, front, back, done, paidFront, paidBack, all [front, back] rfl ?_⟩
  rintro (_ | _ | index) script found
  · cases found
    exact ⟨secondKey, rfl, paidFront⟩
  · cases found
    exact ⟨firstKey, rfl, paidBack⟩
  · cases found

end Transaction

end Utxo
