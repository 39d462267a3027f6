/-
**Addresses and their texts stand one to one for each other.**

* `Address.ofPayload`: the address whose version and digest begin a byte string;
  `toBytes_ofPayload_iff`: its bytes are this byte string just where the last four bytes are the checksum
  of the others.
* `Address.ofBytes_eq_ok_iff`: so an address is read from its own bytes and from no others.
* `Address.Refused`: why a text is no address, the first of three reasons that applies.
* `Address.texts_oneToOne`: the answer to every text, in full.
-/

import Utxo.Key.Address
import Utxo.Proofs.Answer
import Utxo.Proofs.Text.Base58

namespace Utxo.Address

variable {text : String} {bytes : Bytes} {address : Address} {fault : Fault}

/-! ### Bytes -/

theorem length_payload (address : Address) : address.payload.length = 21 := by
  simp [payload]

theorem take_toBytes (address : Address) : address.toBytes.toBytes.take 21 = address.payload :=
  List.take_left' address.length_payload

theorem drop_toBytes (address : Address) :
    address.toBytes.toBytes.drop 21 = checksum address.payload :=
  List.drop_left' address.length_payload

theorem length_digest (fits : bytes.length = byteLength) : ((bytes.drop 1).take 20).length = 20 := by
  simp [fits, byteLength]

/-- The address whose version and digest the first 21 bytes are. -/
def ofPayload (bytes : Bytes) (fits : bytes.length = byteLength) : Address :=
  ⟨bytes.headD 0, ⟨(bytes.drop 1).take 20, length_digest fits⟩⟩

theorem payload_ofPayload (fits : bytes.length = byteLength) :
    (ofPayload bytes fits).payload = bytes.take 21 := by
  cases bytes with
  | nil => cases fits
  | cons version rest => rfl

/-- The version and the digest are told by the first 21 bytes. -/
theorem ext_payload {first second : Address} (same : first.payload = second.payload) :
    first = second := by
  obtain ⟨version, keyHash⟩ := first
  obtain ⟨otherVersion, otherHash⟩ := second
  obtain ⟨rfl, digests⟩ := List.cons.inj same
  exact congrArg (Address.mk version) (FixedBytes.ext digests)

/-- The last four bytes decide. -/
theorem toBytes_ofPayload_iff (fits : bytes.length = byteLength) :
    (ofPayload bytes fits).toBytes.toBytes = bytes ↔ bytes.drop 21 = checksum (bytes.take 21) := by
  show (ofPayload bytes fits).payload ++ checksum (ofPayload bytes fits).payload = bytes ↔ _
  rw [payload_ofPayload]
  constructor
  · intro same
    have parts := same.trans (List.take_append_drop 21 bytes).symm
    exact (List.append_cancel_left parts).symm
  · intro same
    rw [← same, List.take_append_drop]

theorem ofBytes_of_length_ne (differ : bytes.length ≠ byteLength) :
    ofBytes bytes = .error (.wrongLength bytes.length) := dif_neg differ

theorem ofBytes_of_length_eq (fits : bytes.length = byteLength) :
    ofBytes bytes = if bytes.drop 21 = checksum (bytes.take 21) then .ok (ofPayload bytes fits)
      else .error .checksum := by
  unfold ofBytes
  rw [dif_pos fits]
  show (if (ofPayload bytes fits).toBytes.toBytes = bytes then Except.ok (ofPayload bytes fits)
    else _) = _
  simp only [toBytes_ofPayload_iff]

/-- **An address is read from its bytes**, and from no others. -/
theorem ofBytes_eq_ok_iff : ofBytes bytes = .ok address ↔ bytes = address.toBytes.toBytes := by
  constructor
  · intro read
    by_cases fits : bytes.length = byteLength
    · rw [ofBytes_of_length_eq fits] at read
      by_cases agree : bytes.drop 21 = checksum (bytes.take 21)
      · rw [if_pos agree] at read
        rw [← Except.ok.inj read]
        exact ((toBytes_ofPayload_iff fits).mpr agree).symm
      · rw [if_neg agree] at read
        cases read
    · rw [ofBytes_of_length_ne fits] at read
      cases read
  · rintro rfl
    rw [ofBytes_of_length_eq address.toBytes.length_eq, take_toBytes, drop_toBytes, if_pos rfl]
    refine congrArg Except.ok (ext_payload ?_)
    rw [payload_ofPayload, take_toBytes]

/-! ### Texts -/

theorem decode_of_denotes (denotes : Base58.Denotes text bytes) : decode text = ofBytes bytes := by
  rw [decode, Base58.decode_eq_ok_iff_denotes.mpr denotes]

theorem decode_of_foreign {cause : Base58.Fault} (foreign : Base58.Refused text cause) :
    decode text = .error (.base58 cause) := by
  rw [decode, Base58.decode_of_refused foreign]

theorem decode_eq_ok_iff : decode text = .ok address ↔ text = address.encode := by
  rw [encode, ← Base58.decode_eq_ok_iff, decode]
  cases Base58.decode text with
  | ok bytes =>
    show ofBytes bytes = .ok address ↔ _
    rw [ofBytes_eq_ok_iff, Except.ok.injEq]
  | error cause => simp

/-- No two addresses share their text. -/
theorem encode_inj {first second : Address} (same : first.encode = second.encode) :
    first = second := by
  have read := decode_eq_ok_iff.mpr same
  rw [decode_eq_ok_iff.mpr rfl] at read
  exact Except.ok.inj read

/-- **Why a text is no address**: the first of these reasons that applies. -/
inductive Refused (text : String) : Fault → Prop
  | foreign {cause : Base58.Fault} (foreign : Base58.Refused text cause) :
      Refused text (.base58 cause)
  | wrongLength {bytes : Bytes} (denotes : Base58.Denotes text bytes) (differ : bytes.length ≠ 25) :
      Refused text (.wrongLength bytes.length)
  | checksum {bytes : Bytes} (denotes : Base58.Denotes text bytes) (fits : bytes.length = 25)
      (differ : bytes.drop 21 ≠ (doubleSha256 (bytes.take 21)).toBytes.take 4) :
      Refused text .checksum

theorem decode_of_refused (refused : Refused text fault) : decode text = .error fault := by
  cases refused with
  | foreign foreign => exact decode_of_foreign foreign
  | wrongLength denotes differ => rw [decode_of_denotes denotes, ofBytes_of_length_ne differ]
  | checksum denotes fits differ =>
    rw [decode_of_denotes denotes, ofBytes_of_length_eq fits]
    exact if_neg differ

/-- A text is an address, or there is a reason why it is none. -/
theorem exists_decode_or_refused (text : String) :
    (∃ address, decode text = .ok address) ∨ ∃ fault, Refused text fault := by
  cases read : Base58.decode text with
  | error cause => exact Or.inr ⟨_, .foreign (Base58.decode_eq_error_iff.mp read)⟩
  | ok bytes =>
    have denotes := Base58.decode_eq_ok_iff_denotes.mp read
    by_cases fits : bytes.length = byteLength
    · by_cases agree : bytes.drop 21 = checksum (bytes.take 21)
      · refine Or.inl ⟨ofPayload bytes fits, ?_⟩
        rw [decode_of_denotes denotes, ofBytes_of_length_eq fits, if_pos agree]
      · exact Or.inr ⟨_, .checksum denotes fits agree⟩
    · exact Or.inr ⟨_, .wrongLength denotes fits⟩

theorem decode_eq_error_iff : decode text = .error fault ↔ Refused text fault :=
  eq_error_iff_of_refused decode_of_refused (exists_decode_or_refused text)

/-- **Addresses and their texts stand one to one for each other.** A text is read as an address just
where it is the text of this address, which is base-58 for version, digest and checksum; so every address
has one text, and no two share theirs. Any other text is refused, for the first reason that applies. -/
theorem texts_oneToOne :
    (∀ text address, decode text = .ok address ↔ text = address.encode) ∧
    (∀ address : Address, Base58.Denotes address.encode
      (address.version :: address.keyHash.toBytes ++
        (doubleSha256 (address.version :: address.keyHash.toBytes)).toBytes.take 4)) ∧
    (∀ first second : Address, first.encode = second.encode → first = second) ∧
    ∀ text fault, decode text = .error fault ↔ Refused text fault := by
  exact ⟨fun text address => decode_eq_ok_iff, fun address => Base58.denotes_iff_eq_encode.mpr rfl,
    fun first second same => encode_inj same, fun text fault => decode_eq_error_iff⟩

/-- The address of a digest of zeros has many leading `1`s; with one more it is none. -/
theorem texts_oneToOne_zero :
    decode "1111111111111111111114oLvT2" = .ok ⟨0, FixedBytes.zero 20⟩ ∧
      decode "11111111111111111111114oLvT2" = .error (.wrongLength 26) := by
  refine ⟨(texts_oneToOne.1 _ _).mpr (by decide +kernel), ?_⟩
  have read : Base58.decode "11111111111111111111114oLvT2" =
      .ok (0 :: (toBytes ⟨0, FixedBytes.zero 20⟩).toBytes) := by decide +kernel
  have denotes := Base58.decode_eq_ok_iff_denotes.mp read
  exact (texts_oneToOne.2.2.2 _ _).mpr (.wrongLength denotes (by decide +kernel))

end Utxo.Address
