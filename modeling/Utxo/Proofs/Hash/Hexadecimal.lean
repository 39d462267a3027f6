/-
**Digests and their texts stand one to one for each other, up to the case of the letters.**

* `Character.utf8_eq_flatMap`: the bytes of a text, character by character. One below 128 is one byte, and
  every other one begins with a high byte (`Character.le_leadingByte`).
* `Hex.IsDigitByte`: so a text is made of digits where its bytes are those of digits, and its first other
  character begins at its first other byte (`Hex.foreignByte_of_foreign`).
* `Hex.FixedRefused`: why a text is not that of so many bytes, the first of three reasons that applies;
  `Hex.decodeFixed_eq_error_iff`: there is no other. `Hex.decodeFixed_eq_ok_iff`: what the other texts are
  read as.
* `Hash.IsText`: 64 digits; `Hash.ofHex_corresponds`: these are the texts of digests.
-/

import Utxo.Ledger.Block
import Utxo.Proofs.Text.Hex

namespace Utxo

/-! ### The bytes of a text -/

namespace Character

variable {c : Char} {chars : List Char}

/-- The UTF-8 form of a text. -/
def utf8 (text : String) : Bytes := text.toByteArray.data.toList

theorem utf8_eq_flatMap (text : String) : utf8 text = text.toList.flatMap String.utf8EncodeChar := by
  have same : text.toByteArray = text.toList.utf8Encode := by
    rw [← String.toByteArray_ofList, String.ofList_toList]
  rw [utf8, same, List.utf8Encode, List.data_toByteArray]

theorem length_utf8 (text : String) : (utf8 text).length = text.utf8ByteSize := by
  rw [← String.size_toByteArray]
  rfl

/-- A character below 128 is one byte. -/
theorem utf8EncodeChar_of_lt (ascii : c.toNat < 128) :
    String.utf8EncodeChar c = [UInt8.ofNat c.toNat] := by
  have small : c.val.toNat ≤ 127 := Nat.le_of_lt_succ ascii
  unfold String.utf8EncodeChar
  simp only [small, if_true]
  rfl

theorem leadingByte_of_lt (ascii : c.toNat < 128) : leadingByte c = UInt8.ofNat c.toNat := by
  rw [leadingByte, utf8EncodeChar_of_lt ascii]
  rfl

/-- Every other one begins with a byte that is no character by itself. -/
theorem le_leadingByte (foreign : 128 ≤ c.toNat) : 128 ≤ (leadingByte c).toNat := by
  have large : ¬ c.val.toNat ≤ 127 := Nat.not_le.mpr foreign
  unfold leadingByte String.utf8EncodeChar
  simp only [large, if_false]
  split
  · simp only [List.headD_cons, UInt8.toNat_ofNat']
    omega
  · split
    · simp only [List.headD_cons, UInt8.toNat_ofNat']
      omega
    · simp only [List.headD_cons, UInt8.toNat_ofNat']
      omega

theorem exists_utf8EncodeChar_eq_cons (c : Char) :
    ∃ more, String.utf8EncodeChar c = leadingByte c :: more := by
  unfold leadingByte
  cases form : String.utf8EncodeChar c with
  | nil =>
    have length := String.length_utf8EncodeChar c
    rw [form] at length
    exact absurd length.symm (Nat.ne_of_gt c.utf8Size_pos)
  | cons byte more => exact ⟨more, rfl⟩

end Character

namespace Hex

open Character

variable {c : Char} {chars front back : List Char} {text : String} {fault : Fault} {n : Nat}

/-! ### Digits by their bytes -/

/-- The bytes that are digits of either case. -/
def IsDigitByte (byte : UInt8) : Prop := IsDigit (Char.ofNat byte.toNat)

theorem toNat_ofNat_toNat (byte : UInt8) : (Char.ofNat byte.toNat).toNat = byte.toNat := by
  have valid : byte.toNat.isValidChar := Or.inl (Nat.lt_trans byte.toNat_lt (by decide))
  have same : Char.ofNat byte.toNat = Char.ofNatAux byte.toNat valid := dif_pos valid
  rw [same]
  rfl

/-- A character is a digit where its first byte is one. -/
theorem isDigitByte_leadingByte : IsDigitByte (leadingByte c) ↔ IsDigit c := by
  unfold IsDigitByte
  by_cases ascii : c.toNat < 128
  · have fits : c.toNat < UInt8.size := Nat.lt_trans ascii (by decide)
    rw [leadingByte_of_lt ascii, UInt8.toNat_ofNat_of_lt' fits, Char.ofNat_toNat]
  · have high := le_leadingByte (Nat.not_lt.mp ascii)
    constructor
    · intro isDigit
      have low := isDigit.toNat_lt
      rw [toNat_ofNat_toNat] at low
      exact absurd high (Nat.not_le.mpr low)
    · intro isDigit
      exact absurd isDigit.toNat_lt ascii

/-- Digits are one byte each. -/
theorem flatMap_of_isDigit (digits : ∀ c ∈ chars, IsDigit c) :
    chars.flatMap String.utf8EncodeChar = chars.map leadingByte := by
  induction chars with
  | nil => rfl
  | cons c rest ih =>
    rw [List.forall_mem_cons] at digits
    have ascii := digits.1.toNat_lt
    rw [List.flatMap_cons, utf8EncodeChar_of_lt ascii, ih digits.2, List.map_cons, leadingByte_of_lt ascii]
    rfl

theorem isDigitByte_of_mem (digits : ∀ c ∈ chars, IsDigit c) :
    ∀ byte ∈ chars.map leadingByte, IsDigitByte byte := by
  intro byte member
  obtain ⟨c, inside, rfl⟩ := List.mem_map.mp member
  exact isDigitByte_leadingByte.mpr (digits c inside)

/-- **The first character that is no digit begins at the first byte that is none.** -/
theorem foreignByte_of_foreign (split : text.toList = front ++ c :: back)
    (digits : ∀ c ∈ front, IsDigit c) :
    ∃ more, utf8 text = front.map leadingByte ++ leadingByte c :: more := by
  obtain ⟨more, form⟩ := exists_utf8EncodeChar_eq_cons c
  refine ⟨more ++ back.flatMap String.utf8EncodeChar, ?_⟩
  rw [utf8_eq_flatMap, split, List.flatMap_append, flatMap_of_isDigit digits, List.flatMap_cons, form]
  rfl

/-! ### Texts of so many bytes -/

/-- **Why a text is not that of `n` bytes**: its own bytes are odd in number; else its first byte that is no
digit, by its position; else the number of its digits. -/
inductive FixedRefused (n : Nat) (text : String) : Fault → Prop
  | oddLength (odd : (utf8 text).length % 2 = 1) : FixedRefused n text .oddLength
  | badCharacter {front back : Bytes} {byte : UInt8} (even : (utf8 text).length % 2 = 0)
      (split : utf8 text = front ++ byte :: back) (digits : ∀ byte ∈ front, IsDigitByte byte)
      (foreign : ¬ IsDigitByte byte) : FixedRefused n text (.badCharacter byte front.length)
  | wrongLength (even : (utf8 text).length % 2 = 0) (digits : ∀ byte ∈ utf8 text, IsDigitByte byte)
      (other : (utf8 text).length ≠ 2 * n) : FixedRefused n text .wrongLength

/-- No text is refused for two reasons. -/
theorem FixedRefused.unique {other : Fault} (refused : FixedRefused n text fault)
    (again : FixedRefused n text other) : fault = other := by
  cases refused with
  | oddLength odd =>
    cases again with
    | oddLength => rfl
    | badCharacter even => omega
    | wrongLength even => omega
  | badCharacter even split digits foreign =>
    cases again with
    | oddLength odd => omega
    | badCharacter _ alsoSplit alsoDigits alsoForeign =>
      obtain ⟨rfl, rfl⟩ := first_unique (split.symm.trans alsoSplit) digits foreign alsoDigits alsoForeign
      rfl
    | wrongLength _ all =>
      rw [split, List.forall_mem_append, List.forall_mem_cons] at all
      exact absurd all.2.1 foreign
  | wrongLength even digits =>
    cases again with
    | oddLength odd => omega
    | badCharacter _ split _ foreign =>
      rw [split, List.forall_mem_append, List.forall_mem_cons] at digits
      exact absurd digits.2.1 foreign
    | wrongLength => rfl

/-- The texts of `n` bytes: two digits for each of them. -/
def IsTextOf (n : Nat) (text : String) : Prop :=
  text.toList.length = 2 * n ∧ ∀ c ∈ text.toList, IsDigit c

theorem length_encodeChars (bytes : Bytes) : (encodeChars bytes).length = 2 * bytes.length := by
  induction bytes with
  | nil => rfl
  | cons byte rest ih =>
    show (encodeChars rest).length + 2 = 2 * (rest.length + 1)
    rw [ih, Nat.mul_succ]

/-- What a text is read as has a byte for every two of its digits. -/
theorem length_of_decode {bytes : Bytes} (decoded : decode text = .ok bytes) :
    text.toList.length = 2 * bytes.length ∧ ∀ c ∈ text.toList, IsDigit c := by
  have written := toLower_eq_encode_iff.mp (decode_eq_ok_iff.mp decoded)
  have length := congrArg List.length written
  rw [List.length_map, length_encodeChars] at length
  exact ⟨length, (even_and_isDigit_of_encodeChars written).2⟩

theorem decodeFixed_of_decode {bytes : Bytes} (decoded : decode text = .ok bytes) :
    decodeFixed n text = match FixedBytes.ofBytes? bytes with
      | some value => .ok value
      | none => .error .wrongLength := by
  rw [decodeFixed, decoded]
  rfl

/-- **A text is read as `n` bytes just where, its letters lowered, it is their text.** -/
theorem decodeFixed_eq_ok_iff {value : FixedBytes n} :
    decodeFixed n text = .ok value ↔ text.toLower = encode value.toBytes := by
  rw [← decode_eq_ok_iff]
  constructor
  · intro read
    obtain ⟨bytes, decoded, made⟩ := exceptBind_eq_ok_iff.mp read
    cases found : FixedBytes.ofBytes? bytes with
    | some other =>
      rw [found] at made
      cases made
      rw [decoded, FixedBytes.ofBytes?_eq_some_iff.mp found]
    | none =>
      rw [found] at made
      cases made
  · intro decoded
    rw [decodeFixed_of_decode decoded, FixedBytes.ofBytes?_toBytes]

/-- The texts that are read are those of `n` bytes. -/
theorem exists_decodeFixed_iff :
    (∃ value : FixedBytes n, decodeFixed n text = .ok value) ↔ IsTextOf n text := by
  constructor
  · intro ⟨value, read⟩
    have decoded := decode_eq_ok_iff.mpr (decodeFixed_eq_ok_iff.mp read)
    have digits := length_of_decode decoded
    rw [value.length_toBytes] at digits
    exact digits
  · intro ⟨length, digits⟩
    have even : text.toList.length % 2 = 0 := by omega
    obtain ⟨bytes, decoded⟩ := exists_decode_iff.mpr ⟨even, digits⟩
    have double := (length_of_decode decoded).1
    have fits : bytes.length = n := by omega
    exact ⟨⟨bytes, fits⟩, decodeFixed_eq_ok_iff.mpr (decode_eq_ok_iff.mp decoded)⟩

/-- The bytes of digits are digits, and as many. -/
theorem utf8_of_isDigit (digits : ∀ c ∈ text.toList, IsDigit c) :
    (utf8 text).length = text.toList.length ∧ ∀ byte ∈ utf8 text, IsDigitByte byte := by
  rw [utf8_eq_flatMap, flatMap_of_isDigit digits, List.length_map]
  exact ⟨rfl, isDigitByte_of_mem digits⟩

/-- There is no reason to refuse the text of `n` bytes. -/
theorem FixedRefused.not_isTextOf (refused : FixedRefused n text fault) : ¬ IsTextOf n text := by
  intro ⟨length, digits⟩
  obtain ⟨single, all⟩ := utf8_of_isDigit digits
  cases refused with
  | oddLength odd => omega
  | badCharacter even split inside foreign =>
    rw [split, List.forall_mem_append, List.forall_mem_cons] at all
    exact foreign all.2.1
  | wrongLength even inside other => exact other (single.trans length)

/-- What is not read is refused for one of the reasons. -/
theorem fixedRefused_of_error (failed : decodeFixed n text = .error fault) : FixedRefused n text fault := by
  rcases exists_decode_or_refused text with ⟨bytes, decoded⟩ | ⟨other, refused⟩
  · have foreign : ¬ IsTextOf n text := by
      intro isText
      obtain ⟨value, read⟩ := exists_decodeFixed_iff.mpr isText
      rw [read] at failed
      cases failed
    obtain ⟨length, digits⟩ := length_of_decode decoded
    obtain ⟨single, all⟩ := utf8_of_isDigit digits
    rw [decodeFixed_of_decode decoded] at failed
    split at failed
    next => cases failed
    next =>
      cases failed
      refine .wrongLength (by omega) all fun same => foreign ⟨?_, digits⟩
      rw [← single, same]
  · have same : decodeFixed n text = .error other := by
      rw [decodeFixed, decode_of_refused refused]
      rfl
    rw [same] at failed
    cases failed
    cases refused with
    | oddLength odd =>
      rw [← length_utf8] at odd
      exact .oddLength odd
    | badCharacter even split digits foreign =>
      obtain ⟨more, bytes⟩ := foreignByte_of_foreign split digits
      rw [← length_utf8] at even
      rw [← List.length_map leadingByte]
      refine .badCharacter even bytes (isDigitByte_of_mem digits) ?_
      rw [isDigitByte_leadingByte]
      exact foreign

/-- **A text is refused for the first reason that applies, and for no other.** -/
theorem decodeFixed_eq_error_iff : decodeFixed n text = .error fault ↔ FixedRefused n text fault := by
  refine ⟨fixedRefused_of_error, fun refused => ?_⟩
  cases answer : decodeFixed n text with
  | ok value => exact absurd (exists_decodeFixed_iff.mp ⟨value, answer⟩) refused.not_isTextOf
  | error other => rw [refused.unique (fixedRefused_of_error answer)]

end Hex

/-! ### Digests -/

namespace Hash

/-- The texts of digests: 64 digits of either case. -/
def IsText (text : String) : Prop := text.toList.length = 64 ∧ ∀ c ∈ text.toList, Hex.IsDigit c

/-- **Digests and their texts stand one to one for each other**, up to the case of the letters. A text is read
as a digest just where it is 64 digits and, its letters lowered, the text of this digest; so every digest
is read from its text, those of headers, transactions and blocks among them. Every other text is refused:
for an odd number of bytes, else for its first byte that is no digit, else for the number of its digits. -/
theorem ofHex_corresponds (text : String) :
    (∀ hash : Hash, ofHex text = .ok hash ↔ IsText text ∧ text.toLower = hash.toHex) ∧
    (∀ hash : Hash, ofHex hash.toHex = .ok hash) ∧
    (∀ header : BlockHeader, ofHex header.hash.toHex = .ok header.hash) ∧
    (∀ transaction : Transaction, ofHex transaction.id.toHex = .ok transaction.id) ∧
    (∀ block : Block, ofHex block.hash.toHex = .ok block.hash) ∧
    ((∃ fault, ofHex text = .error fault) ↔ ¬ IsText text) ∧
    ∀ fault, ofHex text = .error fault ↔ Hex.FixedRefused 32 text fault := by
  have back : ∀ hash : Hash, ofHex hash.toHex = .ok hash := fun hash =>
    Hex.decodeFixed_eq_ok_iff.mpr (Hex.toLower_encode hash.toBytes)
  refine ⟨fun hash => ?_, back, fun header => back _, fun transaction => back _, fun block => back _, ?_,
    fun fault => Hex.decodeFixed_eq_error_iff⟩
  · constructor
    · intro read
      exact ⟨Hex.exists_decodeFixed_iff.mp ⟨hash, read⟩, Hex.decodeFixed_eq_ok_iff.mp read⟩
    · intro ⟨_, written⟩
      exact Hex.decodeFixed_eq_ok_iff.mpr written
  · constructor
    · intro ⟨fault, failed⟩
      exact (Hex.decodeFixed_eq_error_iff.mp failed).not_isTextOf
    · intro foreign
      cases answer : ofHex text with
      | ok hash => exact absurd (Hex.exists_decodeFixed_iff.mp ⟨hash, answer⟩) foreign
      | error fault => exact ⟨fault, rfl⟩

/-- A character of two bytes counts twice, and it is found at the first of its bytes. -/
example : ofHex "0é" = .error .oddLength ∧ ofHex "0é1" = .error (.badCharacter 0xc3 1) ∧
    ofHex "0F" = .error .wrongLength := by decide +kernel

end Hash

end Utxo
