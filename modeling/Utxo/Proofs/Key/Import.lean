/-
**The texts of secret keys are imported, no others, and all that a key shows fits together.**

* `SecretKey.ofBytes?_eq_some_iff`, `SecretKey.ofHex_eq_ok_iff`: a secret key is read from its own bytes and
  from its own text, in letters of either case.
* `SecretKey.IsText`: 32 bytes in hexadecimal that hold a number in range; `exists_toHex_iff`: these are the
  texts of secret keys.
* `Validator.importKey_eq_ok_iff`, `Validator.importKey_eq_error_iff`: every answer of an import. What is
  imported is consistent, since all that a key keeps is derived again under the validator's version.
* `Key.ImportedFrom`: what an imported key shows; `Validator.importKey_selfConsistent`: the answers, and
  that validators of two address versions import one text to keys that only their addresses tell apart.
-/

import Utxo.Proofs.Key.Derivation
import Utxo.Proofs.Text.Hex
import Utxo.Signature.Ecdsa
import Utxo.Validator

namespace Utxo

/-! ### Secret keys -/

namespace SecretKey

variable {bytes : Bytes} {secret : SecretKey} {text : String}

theorem ofNat?_eq_some_iff {value : Nat} : ofNat? value = some secret ↔ value = secret.value := by
  constructor
  · intro found
    unfold ofNat? at found
    split at found
    · cases found
      rfl
    · cases found
  · rintro rfl
    exact dif_pos ⟨secret.pos, secret.lt_order⟩

/-- **A secret key is read from its bytes**, and from no others. -/
theorem ofBytes?_eq_some_iff : ofBytes? bytes = some secret ↔ bytes = secret.toBytes.toBytes := by
  constructor
  · intro found
    unfold ofBytes? at found
    split at found
    next fits =>
      have written := BigEndian.encode_decode bytes
      rw [fits, ofNat?_eq_some_iff.mp found] at written
      exact written.symm
    next => cases found
  · rintro rfl
    exact ofBytes?_toBytes secret

theorem exists_toBytes_iff : (∃ secret : SecretKey, bytes = secret.toBytes.toBytes) ↔
    bytes.length = 32 ∧ 0 < BigEndian.decode bytes ∧ BigEndian.decode bytes < Curve.order := by
  constructor
  · rintro ⟨secret, rfl⟩
    have fits : secret.value < Nat.pow 256 32 := Nat.lt_trans secret.lt_order (by decide)
    have back : BigEndian.decode secret.toBytes.toBytes = secret.value := BigEndian.decode_encode fits
    rw [back]
    exact ⟨secret.toBytes.length_eq, secret.pos, secret.lt_order⟩
  · rintro ⟨fits, pos, lt_order⟩
    refine ⟨⟨_, pos, lt_order⟩, ?_⟩
    have written := BigEndian.encode_decode bytes
    rw [fits] at written
    exact written.symm

theorem ofBytes_eq_ok_iff : ofBytes bytes = .ok secret ↔ bytes = secret.toBytes.toBytes := by
  rw [← ofBytes?_eq_some_iff, ofBytes]
  cases ofBytes? bytes with
  | some other => simp
  | none => simp

theorem ofBytes_of_forall_ne (foreign : ∀ secret : SecretKey, bytes ≠ secret.toBytes.toBytes) :
    ofBytes bytes = .error .invalidPrivateKey := by
  rw [ofBytes]
  cases found : ofBytes? bytes with
  | some secret => exact absurd (ofBytes?_eq_some_iff.mp found) (foreign secret)
  | none => rfl

theorem ofHex_of_toLower (written : text.toLower = Hex.encode bytes) : ofHex text = ofBytes bytes := by
  rw [ofHex, Hex.decode_eq_ok_iff.mpr written]

theorem ofHex_of_refused {fault : Hex.Fault} (refused : Hex.Refused text fault) :
    ofHex text = .error (.hex fault) := by
  rw [ofHex, Hex.decode_of_refused refused]

/-- **A secret key is read from its text**, in letters of either case. -/
theorem ofHex_eq_ok_iff : ofHex text = .ok secret ↔ text.toLower = secret.toHex := by
  constructor
  · intro read
    rcases Hex.exists_decode_or_refused text with ⟨bytes, decoded⟩ | ⟨fault, refused⟩
    · have written := Hex.decode_eq_ok_iff.mp decoded
      rw [ofHex_of_toLower written] at read
      rw [written, ofBytes_eq_ok_iff.mp read, toHex]
    · rw [ofHex_of_refused refused] at read
      cases read
  · intro written
    rw [ofHex_of_toLower written]
    exact ofBytes_eq_ok_iff.mpr rfl

/-- **The texts of secret keys**: 32 bytes in hexadecimal, in digits of either case, that hold a number from
1 up to the order. -/
def IsText (text : String) : Prop :=
  ∃ bytes : Bytes, text.toLower = Hex.encode bytes ∧ bytes.length = 32 ∧
    0 < BigEndian.decode bytes ∧ BigEndian.decode bytes < Curve.order

theorem exists_toHex_iff : (∃ secret : SecretKey, text.toLower = secret.toHex) ↔ IsText text := by
  constructor
  · rintro ⟨secret, written⟩
    exact ⟨_, written, exists_toBytes_iff.mp ⟨secret, rfl⟩⟩
  · rintro ⟨bytes, written, inRange⟩
    obtain ⟨secret, rfl⟩ := exists_toBytes_iff.mpr inRange
    exact ⟨secret, written⟩

end SecretKey

/-! ### Imports -/

namespace Validator

variable [SignatureScheme] {validator : Validator} {text : String} {key : Key}

/-- The key that was read is derived again, so only its secret key counts. -/
theorem importKey_eq (validator : Validator) (text : String) :
    validator.importKey text =
      (Key.derive · validator.config.addressVersion) <$> SecretKey.ofHex text := by
  unfold importKey Key.ofHex
  rw [Functor.map_map]
  rfl

/-- **A key is imported from the text of its secret key**, with all that it keeps derived under the version
of the validator. -/
theorem importKey_eq_ok_iff : validator.importKey text = .ok key ↔
    text.toLower = key.secretHex ∧ key.Consistent ∧ key.version = validator.config.addressVersion := by
  rw [importKey_eq, exceptMap_eq_ok_iff]
  refine ⟨fun ⟨secret, read, derived⟩ => ?_, fun ⟨written, consistent, version⟩ => ?_⟩
  · rw [← derived]
    exact ⟨SecretKey.ofHex_eq_ok_iff.mp read, Key.consistent_derive _ _, Key.version_derive _ _⟩
  · refine ⟨key.secret, SecretKey.ofHex_eq_ok_iff.mpr written, ?_⟩
    rw [← version]
    exact (Key.consistent_iff.mp consistent).symm

theorem consistent_of_generateKey? {draws : List Bytes} (made : validator.generateKey? draws = some key) :
    key.Consistent ∧ key.version = validator.config.addressVersion := by
  obtain ⟨drawn, -, rfl⟩ := Option.map_eq_some_iff.mp made
  exact ⟨Key.consistent_withVersion _ _, Key.version_derive _ _⟩

theorem importKey_of_refused {fault : Hex.Fault} (refused : Hex.Refused text fault) :
    validator.importKey text = .error (.hex fault) := by
  rw [importKey_eq, SecretKey.ofHex_of_refused refused]
  rfl

theorem importKey_of_not_isText {bytes : Bytes} (written : text.toLower = Hex.encode bytes)
    (foreign : ¬ SecretKey.IsText text) : validator.importKey text = .error .invalidPrivateKey := by
  have none : ∀ secret : SecretKey, bytes ≠ secret.toBytes.toBytes := by
    rintro secret rfl
    exact foreign (SecretKey.exists_toHex_iff.mp ⟨secret, written⟩)
  rw [importKey_eq, SecretKey.ofHex_of_toLower written, SecretKey.ofBytes_of_forall_ne none]
  rfl

theorem exists_importKey_iff : (∃ key, validator.importKey text = .ok key) ↔ SecretKey.IsText text := by
  simp only [importKey_eq_ok_iff, ← SecretKey.exists_toHex_iff]
  refine ⟨fun ⟨key, written, _⟩ => ⟨key.secret, written⟩, fun ⟨secret, written⟩ => ?_⟩
  exact ⟨.derive secret validator.config.addressVersion, written, Key.consistent_derive _ _,
    Key.version_derive _ _⟩

/-- The reasons not to import a text. -/
inductive ImportRefused (text : String) : Error → Prop
  | hex {fault : Hex.Fault} (refused : Hex.Refused text fault) : ImportRefused text (.hex fault)
  | invalid {bytes : Bytes} (written : text.toLower = Hex.encode bytes)
      (foreign : ¬ SecretKey.IsText text) : ImportRefused text .invalidPrivateKey

theorem importKey_eq_error_iff {fault : Error} :
    validator.importKey text = .error fault ↔ ImportRefused text fault := by
  refine eq_error_iff_of_refused (fun refused => ?_) ?_
  · cases refused with
    | hex refused => exact importKey_of_refused refused
    | invalid written foreign => exact importKey_of_not_isText written foreign
  · rcases Hex.exists_decode_or_refused text with ⟨bytes, decoded⟩ | ⟨fault, refused⟩
    · by_cases isText : SecretKey.IsText text
      · exact Or.inl (exists_importKey_iff.mpr isText)
      · exact Or.inr ⟨_, .invalid (Hex.decode_eq_ok_iff.mp decoded) isText⟩
    · exact Or.inr ⟨_, .hex refused⟩

/-- What is refused as no hexadecimal text is none. -/
theorem exists_importKey_hex_iff : (∃ fault, validator.importKey text = .error (.hex fault)) ↔
    ¬ (text.toList.length % 2 = 0 ∧ ∀ c ∈ text.toList, Hex.IsDigit c) := by
  rw [← Hex.exists_decode_iff]
  simp only [importKey_eq_error_iff]
  constructor
  · rintro ⟨fault, refused⟩ ⟨bytes, decoded⟩
    cases refused with
    | hex refused =>
      rw [Hex.decode_of_refused refused] at decoded
      cases decoded
  · intro none
    rcases Hex.exists_decode_or_refused text with decoded | ⟨fault, refused⟩
    · exact absurd decoded none
    · exact ⟨fault, .hex refused⟩

/-- What is refused as no key is one of the other texts. -/
theorem importKey_eq_invalid_iff : validator.importKey text = .error .invalidPrivateKey ↔
    (text.toList.length % 2 = 0 ∧ ∀ c ∈ text.toList, Hex.IsDigit c) ∧ ¬ SecretKey.IsText text := by
  rw [← Hex.exists_decode_iff, importKey_eq_error_iff]
  constructor
  · intro refused
    cases refused with
    | invalid written foreign => exact ⟨⟨_, Hex.decode_eq_ok_iff.mpr written⟩, foreign⟩
  · rintro ⟨⟨bytes, decoded⟩, foreign⟩
    exact .invalid (Hex.decode_eq_ok_iff.mp decoded) foreign

end Validator

/-! ### What an imported key shows -/

namespace Key

variable [SignatureScheme] {key : Key} {text : String} {version : UInt8}

/-- **All that a key keeps and shows fits together**, and with the text and the version that it is imported
from. -/
structure ImportedFrom (key : Key) (text : String) (version : UInt8) : Prop where
  secretHex : key.secretHex = text.toLower
  secret : ∀ bytes, text.toLower = Hex.encode bytes → key.secret.value = BigEndian.decode bytes
  publicKey : key.publicKey = SignatureScheme.publicKey key.secret
  publicKeyHash : key.publicKeyHash = hash160 key.publicKey.toBytes
  addressBytes : key.addressBytes.toBytes = version :: key.publicKeyHash.toBytes ++
    (doubleSha256 (version :: key.publicKeyHash.toBytes)).toBytes.take 4
  addressText : key.addressText = (Address.mk version key.publicKeyHash).encode
  decoded : Address.decode key.addressText = .ok ⟨version, key.publicKeyHash⟩

theorem importedFrom (consistent : key.Consistent) (written : text.toLower = key.secretHex) :
    key.ImportedFrom text key.version where
  secretHex := written.symm
  secret bytes same := by
    have fits : key.secret.value < Nat.pow 256 32 := Nat.lt_trans key.secret.lt_order (by decide)
    have bytesEq : bytes = key.secret.toBytes.toBytes := Hex.encode_inj (same.symm.trans written)
    rw [bytesEq]
    exact (BigEndian.decode_encode fits).symm
  publicKey := consistent.publicKey
  publicKeyHash := consistent.publicKeyHash
  addressBytes := by
    rw [consistent.addressBytes]
    rfl
  addressText := consistent.addressText
  decoded := Address.decode_eq_ok_iff.mpr consistent.addressText

/-- **Only the addresses tell two keys apart**, as bytes and as text. -/
structure DifferInAddress (first second : Key) : Prop where
  secret : first.secret = second.secret
  secretHex : first.secretHex = second.secretHex
  publicKey : first.publicKey = second.publicKey
  publicKeyHash : first.publicKeyHash = second.publicKeyHash
  sign : ∀ digest, first.sign digest = second.sign digest
  addressBytes : first.addressBytes ≠ second.addressBytes
  addressText : first.addressText ≠ second.addressText

/-- **Two consistent keys of one secret key agree but for their addresses**, if these have two versions. -/
theorem Consistent.differInAddress {other : Key} (consistent : key.Consistent) (also : other.Consistent)
    (secret : key.secret = other.secret) (differ : key.version ≠ other.version) :
    key.DifferInAddress other := by
  have publicKey : key.publicKey = other.publicKey := by
    rw [consistent.publicKey, also.publicKey, secret]
  have publicKeyHash : key.publicKeyHash = other.publicKeyHash := by
    rw [consistent.publicKeyHash, also.publicKeyHash, publicKey]
  have address : key.addressText ≠ other.addressText := by
    intro same
    rw [consistent.addressText, also.addressText] at same
    exact differ (congrArg Address.version (Address.encode_inj same))
  exact
    { secret
      secretHex := congrArg SecretKey.toHex secret
      publicKey
      publicKeyHash
      sign := fun digest => congrArg (SignatureScheme.sign · digest) secret
      addressBytes := fun same => differ (congrArg (·.toBytes.headD 0) same)
      addressText := address }

end Key

/-- **The texts of secret keys are imported, no others, and what is imported fits together.** A text that is
no even number of digits is refused as such, and another one that holds no secret key as that. An imported
key shows the text in lowercase, the digest of its public key, and the address of this digest under the
validator's version; its own text is imported as this key again. A validator of another version imports
the text too, as a key that only the address tells apart. -/
theorem Validator.importKey_selfConsistent [SignatureScheme] (validator : Validator) (text : String) :
    ((∃ key, validator.importKey text = .ok key) ↔ SecretKey.IsText text) ∧
    ((∃ fault, validator.importKey text = .error (.hex fault)) ↔
      ¬ (text.toList.length % 2 = 0 ∧ ∀ c ∈ text.toList, Hex.IsDigit c)) ∧
    (validator.importKey text = .error .invalidPrivateKey ↔
      (text.toList.length % 2 = 0 ∧ ∀ c ∈ text.toList, Hex.IsDigit c) ∧ ¬ SecretKey.IsText text) ∧
    ∀ key, validator.importKey text = .ok key →
      key.ImportedFrom text validator.config.addressVersion ∧
      validator.importKey key.secretHex = .ok key ∧
      ∀ other : Validator, other.config.addressVersion ≠ validator.config.addressVersion →
        ∃ otherKey, other.importKey text = .ok otherKey ∧ key.DifferInAddress otherKey := by
  refine ⟨exists_importKey_iff, exists_importKey_hex_iff, importKey_eq_invalid_iff, ?_⟩
  intro key imported
  obtain ⟨written, consistent, version⟩ := importKey_eq_ok_iff.mp imported
  refine ⟨?_, ?_, fun other differ => ?_⟩
  · rw [← version]
    exact Key.importedFrom consistent written
  · exact importKey_eq_ok_iff.mpr ⟨Hex.toLower_encode _, consistent, version⟩
  · have also := Key.consistent_withVersion key other.config.addressVersion
    have otherVersion := Key.version_derive key.secret other.config.addressVersion
    refine ⟨key.withVersion other.config.addressVersion,
      importKey_eq_ok_iff.mpr ⟨written, also, otherVersion⟩,
      consistent.differInAddress also rfl fun same => ?_⟩
    exact differ (otherVersion.symm.trans (same.symm.trans version))

/-- Ten is a secret key, written in a capital letter. A validator of another version imports it too; two
digits alone are no secret key. -/
theorem Validator.importKey_selfConsistent_ten :
    (∃ key, default.importKey (String.ofList (List.replicate 63 '0' ++ ['A'])) = .ok key ∧
      key.secret.value = 10 ∧
      key.secretHex = String.ofList (List.replicate 63 '0' ++ ['a']) ∧
      ∃ otherKey, Validator.importKey ⟨⟨1, 0x6f⟩, by decide⟩
          (String.ofList (List.replicate 63 '0' ++ ['A'])) = .ok otherKey ∧
        key.DifferInAddress otherKey) ∧
    default.importKey "0A" = .error .invalidPrivateKey := by
  have written : (String.ofList (List.replicate 63 '0' ++ ['A'])).toLower =
      Hex.encode (List.replicate 31 0 ++ [10]) := by decide +kernel
  obtain ⟨key, imported⟩ := (importKey_selfConsistent default _).1.mpr
    ⟨_, written, by decide, by decide, by decide⟩
  obtain ⟨shown, -, others⟩ := (importKey_selfConsistent default _).2.2.2 key imported
  refine ⟨⟨key, imported, shown.secret _ written, shown.secretHex.trans ?_,
    others ⟨⟨1, 0x6f⟩, by decide⟩ (by decide)⟩, ?_⟩
  · decide +kernel
  · have one : "0A".toLower = Hex.encode [10] := by decide +kernel
    have hexadecimal := Hex.exists_decode_iff.mp ⟨[10], Hex.decode_eq_ok_iff.mpr one⟩
    refine (importKey_selfConsistent default "0A").2.2.1.mpr ⟨hexadecimal, ?_⟩
    rintro ⟨bytes, written, length, -⟩
    rw [← Hex.encode_inj (one.symm.trans written)] at length
    cases length

end Utxo
