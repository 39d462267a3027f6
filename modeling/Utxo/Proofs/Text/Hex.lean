/-
**Hexadecimal text and byte strings stand one to one for each other, up to the case of the letters.**

* `Hex.IsDigit`: the ten digits and twelve letters. `digit?_eq_some_iff`: a digit's number tells the digit,
  its letter lowered.
* `Hex.decodePairs_eq_ok_iff`: so pairs of digits are read as the bytes that they are written for, by
  induction on the pairs; `decode_eq_ok_iff`: a text is read as a byte string just where, its letters
  lowered, it is the text of this byte string.
* `Hex.Refused`: why a text is refused, the first of two reasons that applies; `decode_eq_error_iff`: there
  is no other. `exists_decode_iff`: a text without a reason is one of an even number of digits.
* `Hex.encode_inj`, `Hash.toHex_inj`: no two byte strings, and no two digests, share their text.
-/

import Mathlib.Data.List.Induction
import Utxo.Hash.Digest
import Utxo.Proofs.Answer

namespace Utxo

namespace Hex

variable {c : Char} {number : Nat} {bytes : Bytes} {text : String} {fault : Fault}

/-! ### Digits -/

/-- The digits of either case. -/
def IsDigit (c : Char) : Prop :=
  ('0' ≤ c ∧ c ≤ '9') ∨ ('a' ≤ c ∧ c ≤ 'f') ∨ ('A' ≤ c ∧ c ≤ 'F')

instance : DecidablePred IsDigit := fun c =>
  inferInstanceAs (Decidable (('0' ≤ c ∧ c ≤ '9') ∨ ('a' ≤ c ∧ c ≤ 'f') ∨ ('A' ≤ c ∧ c ≤ 'F')))

theorem IsDigit.toNat_lt (isDigit : IsDigit c) : c.toNat < 128 := by
  have below : ∀ top : Char, top.toNat < 128 → c ≤ top → c.toNat < 128 := fun top small le =>
    Nat.lt_of_le_of_lt le small
  rcases isDigit with inside | inside | inside
  · exact below '9' (by decide) inside.2
  · exact below 'f' (by decide) inside.2
  · exact below 'F' (by decide) inside.2

theorem digit?_eq_none_iff : digit? c = none ↔ ¬ IsDigit c := by
  unfold digit? IsDigit
  split
  next inside => simp [inside]
  next notDecimal =>
    split
    next inside => simp [inside]
    next notLower =>
      split
      next inside => simp [inside]
      next notUpper => simp [notDecimal, notLower, notUpper]

/-- Only a character of one byte has a case. -/
theorem toLower_of_le (foreign : 128 ≤ c.toNat) : c.toLower = c := by
  have outside : ¬ (c.val ≥ 'A'.val ∧ c.val ≤ 'Z'.val) := fun inside => by
    have small : c.toNat ≤ 'Z'.toNat := inside.2
    exact absurd (Nat.le_trans foreign small) (by decide)
  exact dif_neg outside

theorem digit_toNat_lt (small : number < 16) : (digit number).toNat < 128 := by
  have each : ∀ value : Fin 16, (digit value).toNat < 128 := by decide
  exact each ⟨number, small⟩

/-- **A digit's number tells the digit**, its letter lowered. -/
theorem digit?_eq_some_iff : digit? c = some number ↔ number < 16 ∧ c.toLower = digit number := by
  by_cases ascii : c.toNat < 128
  · have bounded : ∀ code : Fin 128, (digit? (Char.ofNat code)).all (· < 16) = true := by
      decide +kernel
    have each : ∀ code : Fin 128, ∀ value : Fin 16,
        digit? (Char.ofNat code) = some value.val ↔ (Char.ofNat code).toLower = digit value := by
      decide +kernel
    specialize bounded ⟨c.toNat, ascii⟩
    specialize each ⟨c.toNat, ascii⟩
    simp only [Char.ofNat_toNat] at bounded each
    constructor
    · intro found
      rw [found] at bounded
      have small : number < 16 := of_decide_eq_true bounded
      exact ⟨small, (each ⟨number, small⟩).mp found⟩
    · rintro ⟨small, lowered⟩
      exact (each ⟨number, small⟩).mpr lowered
  · have foreign : ¬ IsDigit c := fun isDigit => ascii isDigit.toNat_lt
    rw [digit?_eq_none_iff.mpr foreign, toLower_of_le (Nat.not_lt.mp ascii)]
    constructor
    · intro found
      cases found
    · rintro ⟨small, rfl⟩
      exact absurd (digit_toNat_lt small) ascii

/-- The digits that are written have no case to lower. -/
theorem toLower_digit (small : number < 16) : (digit number).toLower = digit number := by
  have each : ∀ value : Fin 16, (digit value).toLower = digit value := by decide
  exact each ⟨number, small⟩

theorem exists_digit?_of_isDigit (isDigit : IsDigit c) : ∃ number, digit? c = some number := by
  cases found : digit? c with
  | some number => exact ⟨number, rfl⟩
  | none => exact absurd isDigit (digit?_eq_none_iff.mp found)

/-! ### Reading pairs -/

theorem digitAt_eq_ok_iff {position : Nat} :
    digitAt position c = .ok number ↔ number < 16 ∧ c.toLower = digit number := by
  rw [← digit?_eq_some_iff, digitAt]
  cases digit? c with
  | some other => simp
  | none => simp

theorem digitAt_of_foreign (foreign : ¬ IsDigit c) (position : Nat) :
    digitAt position c = .error (.badCharacter (Character.leadingByte c) position) := by
  rw [digitAt, digit?_eq_none_iff.mpr foreign]

/-- The byte of two digits. -/
def pairByte (upper lower : Nat) : UInt8 := UInt8.ofNat (16 * upper + lower)

theorem toNat_pairByte {upper lower : Nat} (high : upper < 16) (low : lower < 16) :
    (pairByte upper lower).toNat / 16 = upper ∧ (pairByte upper lower).toNat % 16 = lower := by
  have small : 16 * upper + lower < 256 := by omega
  have value : (pairByte upper lower).toNat = 16 * upper + lower := UInt8.toNat_ofNat_of_lt' small
  omega

theorem pairByte_toNat (byte : UInt8) : pairByte (byte.toNat / 16) (byte.toNat % 16) = byte := by
  rw [pairByte, Nat.div_add_mod, UInt8.ofNat_toNat]

/-- A pair is read just where it is that of a byte, which joins the bytes before. -/
theorem decodePairs_pair_eq_ok_iff {position : Nat} {done : Bytes} {high low : Char}
    {rest : List Char} :
    decodePairs position done (high :: low :: rest) = .ok bytes ↔
      ∃ byte : UInt8, high.toLower = digit (byte.toNat / 16) ∧ low.toLower = digit (byte.toNat % 16) ∧
        decodePairs (position + 2) (byte :: done) rest = .ok bytes := by
  rw [decodePairs]
  constructor
  · intro read
    obtain ⟨upper, highRead, read⟩ := exceptBind_eq_ok_iff.mp read
    obtain ⟨lower, lowRead, read⟩ := exceptBind_eq_ok_iff.mp read
    obtain ⟨highSmall, highLowered⟩ := digitAt_eq_ok_iff.mp highRead
    obtain ⟨lowSmall, lowLowered⟩ := digitAt_eq_ok_iff.mp lowRead
    obtain ⟨highBack, lowBack⟩ := toNat_pairByte highSmall lowSmall
    exact ⟨pairByte upper lower, by rw [highBack, highLowered], by rw [lowBack, lowLowered], read⟩
  · rintro ⟨byte, highLowered, lowLowered, read⟩
    have highSmall : byte.toNat / 16 < 16 := Nat.div_lt_of_lt_mul byte.toNat_lt
    have lowSmall : byte.toNat % 16 < 16 := Nat.mod_lt _ (by decide)
    rw [digitAt_eq_ok_iff.mpr ⟨highSmall, highLowered⟩, digitAt_eq_ok_iff.mpr ⟨lowSmall, lowLowered⟩]
    show decodePairs (position + 2) (pairByte (byte.toNat / 16) (byte.toNat % 16) :: done) rest = _
    rw [pairByte_toNat, read]

/-- **Pairs of digits are read as the bytes that they are written for**, whatever their case. -/
theorem decodePairs_eq_ok_iff {position : Nat} {done : Bytes} {chars : List Char} :
    decodePairs position done chars = .ok bytes ↔
      ∃ rest, bytes = done.reverse ++ rest ∧ chars.map Char.toLower = encodeChars rest := by
  induction chars using List.twoStepInduction generalizing position done with
  | nil =>
    rw [decodePairs, Except.ok.injEq]
    constructor
    · rintro rfl
      exact ⟨[], (List.append_nil _).symm, rfl⟩
    · rintro ⟨rest, rfl, written⟩
      cases rest with
      | nil => rw [List.append_nil]
      | cons byte rest => cases written
  | singleton alone =>
    constructor
    · intro read
      obtain ⟨number, -, failed⟩ := exceptBind_eq_ok_iff.mp read
      cases failed
    · rintro ⟨rest, rfl, written⟩
      cases rest with
      | nil => cases written
      | cons byte rest => cases (List.cons.inj written).2
  | cons_cons high low chars ih _ =>
    rw [decodePairs_pair_eq_ok_iff]
    constructor
    · rintro ⟨byte, highLowered, lowLowered, read⟩
      obtain ⟨rest, rfl, written⟩ := ih.mp read
      refine ⟨byte :: rest, by rw [List.reverse_cons, List.append_assoc]; rfl, ?_⟩
      rw [List.map_cons, List.map_cons, highLowered, lowLowered, written]
      rfl
    · rintro ⟨rest, rfl, written⟩
      cases rest with
      | nil => cases written
      | cons byte rest =>
        obtain ⟨highLowered, written⟩ := List.cons.inj written
        obtain ⟨lowLowered, written⟩ := List.cons.inj written
        refine ⟨byte, highLowered, lowLowered, ih.mpr ⟨rest, ?_, written⟩⟩
        rw [List.reverse_cons, List.append_assoc]
        rfl

/-- Behind digits, reading stops at the first character that is none. -/
theorem decodePairs_of_foreign {front back : List Char} (digits : ∀ c ∈ front, IsDigit c)
    (foreign : ¬ IsDigit c) (position : Nat) (done : Bytes) :
    decodePairs position done (front ++ c :: back) =
      .error (.badCharacter (Character.leadingByte c) (position + front.length)) := by
  induction front using List.twoStepInduction generalizing position done with
  | nil =>
    cases back with
    | nil =>
      show decodePairs position done [c] = _
      rw [decodePairs, digitAt_of_foreign foreign]
      rfl
    | cons low back =>
      show decodePairs position done (c :: low :: back) = _
      rw [decodePairs, digitAt_of_foreign foreign]
      rfl
  | singleton high =>
    obtain ⟨upper, found⟩ := exists_digit?_of_isDigit (digits high (List.mem_singleton_self _))
    show decodePairs position done (high :: c :: back) = _
    rw [decodePairs, digitAt_eq_ok_iff.mpr (digit?_eq_some_iff.mp found), digitAt_of_foreign foreign]
    rfl
  | cons_cons high low front ih _ =>
    simp only [List.forall_mem_cons] at digits
    obtain ⟨highDigit, lowDigit, digits⟩ := digits
    obtain ⟨upper, highFound⟩ := exists_digit?_of_isDigit highDigit
    obtain ⟨lower, lowFound⟩ := exists_digit?_of_isDigit lowDigit
    have offset : position + 2 + front.length = position + (high :: low :: front).length := by
      simp only [List.length_cons]
      omega
    show decodePairs position done (high :: low :: (front ++ c :: back)) = _
    rw [decodePairs, digitAt_eq_ok_iff.mpr (digit?_eq_some_iff.mp highFound),
      digitAt_eq_ok_iff.mpr (digit?_eq_some_iff.mp lowFound), ← offset]
    exact ih digits _ _

/-- A byte of two digits. -/
theorem exists_byte {high low : Char} (highDigit : IsDigit high) (lowDigit : IsDigit low) :
    ∃ byte : UInt8, high.toLower = digit (byte.toNat / 16) ∧
      low.toLower = digit (byte.toNat % 16) := by
  obtain ⟨upper, highFound⟩ := exists_digit?_of_isDigit highDigit
  obtain ⟨lower, lowFound⟩ := exists_digit?_of_isDigit lowDigit
  obtain ⟨highSmall, highLowered⟩ := digit?_eq_some_iff.mp highFound
  obtain ⟨lowSmall, lowLowered⟩ := digit?_eq_some_iff.mp lowFound
  obtain ⟨highBack, lowBack⟩ := toNat_pairByte highSmall lowSmall
  exact ⟨pairByte upper lower, by rw [highBack, highLowered], by rw [lowBack, lowLowered]⟩

/-- An even number of digits is the text of a byte string. -/
theorem exists_encodeChars {chars : List Char} (even : chars.length % 2 = 0)
    (digits : ∀ c ∈ chars, IsDigit c) : ∃ bytes, chars.map Char.toLower = encodeChars bytes := by
  induction chars using List.twoStepInduction with
  | nil => exact ⟨[], rfl⟩
  | singleton alone => cases even
  | cons_cons high low chars ih _ =>
    simp only [List.forall_mem_cons] at digits
    obtain ⟨highDigit, lowDigit, digits⟩ := digits
    obtain ⟨byte, highLowered, lowLowered⟩ := exists_byte highDigit lowDigit
    obtain ⟨bytes, written⟩ := ih ((Nat.add_mod_right _ _).symm.trans even) digits
    refine ⟨byte :: bytes, ?_⟩
    rw [List.map_cons, List.map_cons, highLowered, lowLowered, written]
    rfl

theorem isDigit_of_toLower (small : number < 16) (lowered : c.toLower = digit number) : IsDigit c := by
  by_contra foreign
  have found := digit?_eq_some_iff.mpr ⟨small, lowered⟩
  rw [digit?_eq_none_iff.mpr foreign] at found
  cases found

/-- The text of a byte string, in letters of either case, is an even number of digits. -/
theorem even_and_isDigit_of_encodeChars {chars : List Char}
    (written : chars.map Char.toLower = encodeChars bytes) :
    chars.length % 2 = 0 ∧ ∀ c ∈ chars, IsDigit c := by
  induction chars using List.twoStepInduction generalizing bytes with
  | nil => exact ⟨rfl, by simp⟩
  | singleton alone =>
    cases bytes with
    | nil => cases written
    | cons byte rest => cases (List.cons.inj written).2
  | cons_cons high low chars ih _ =>
    cases bytes with
    | nil => cases written
    | cons byte rest =>
      obtain ⟨highLowered, written⟩ := List.cons.inj written
      obtain ⟨lowLowered, written⟩ := List.cons.inj written
      obtain ⟨even, digits⟩ := ih written
      refine ⟨(Nat.add_mod_right _ _).trans even, ?_⟩
      simp only [List.forall_mem_cons]
      exact ⟨isDigit_of_toLower (Nat.div_lt_of_lt_mul byte.toNat_lt) highLowered,
        isDigit_of_toLower (Nat.mod_lt _ (by decide)) lowLowered, digits⟩

/-! ### Texts -/

/-- A digit takes one byte. -/
theorem utf8ByteSize_of_isDigit (digits : ∀ c ∈ text.toList, IsDigit c) :
    text.utf8ByteSize = text.toList.length := by
  have each : ∀ chars : List Char, (∀ c ∈ chars, IsDigit c) →
      chars.utf8Encode.size = chars.length := by
    intro chars digits
    induction chars with
    | nil => rfl
    | cons c rest ih =>
      rw [List.forall_mem_cons] at digits
      have single : c.utf8Size = 1 := Char.utf8Size_eq_one_iff.mpr (Nat.le_of_lt_succ digits.1.toNat_lt)
      rw [List.utf8Encode_cons, ByteArray.size_append, ih digits.2, List.utf8Encode_singleton,
        List.size_toByteArray, String.length_utf8EncodeChar, single, List.length_cons, Nat.add_comm]
  rw [← String.size_toByteArray, ← each text.toList digits, ← String.toByteArray_ofList,
    String.ofList_toList]

theorem toLower_eq_encode_iff :
    text.toLower = encode bytes ↔ text.toList.map Char.toLower = encodeChars bytes := by
  have lowered : text.toLower.toList = text.toList.map Char.toLower := String.toList_map
  rw [encode, ← String.toList_inj, String.toList_ofList, lowered]

/-- **A text is read as a byte string just where, its letters lowered, it is the text of this one.** -/
theorem decode_eq_ok_iff : decode text = .ok bytes ↔ text.toLower = encode bytes := by
  have pairs : decodePairs 0 [] text.toList = .ok bytes ↔ text.toLower = encode bytes := by
    rw [decodePairs_eq_ok_iff, toLower_eq_encode_iff]
    simp
  rw [← pairs, decode]
  split
  next odd =>
    -- the text of a byte string has two digits for each byte, so its length is even
    refine ⟨fun read => (nomatch read), fun read => ?_⟩
    obtain ⟨even, digits⟩ := even_and_isDigit_of_encodeChars (toLower_eq_encode_iff.mp (pairs.mp read))
    rw [utf8ByteSize_of_isDigit digits, even] at odd
    cases odd
  next => rfl

/-- **Why a text is not hexadecimal**: its length, measured in bytes, is odd; else its first character that
is no digit, at the byte where this one begins. -/
inductive Refused (text : String) : Fault → Prop
  | oddLength (odd : text.utf8ByteSize % 2 = 1) : Refused text .oddLength
  | badCharacter {front back : List Char} {c : Char} (even : text.utf8ByteSize % 2 = 0)
      (split : text.toList = front ++ c :: back) (digits : ∀ c ∈ front, IsDigit c)
      (foreign : ¬ IsDigit c) :
      Refused text (.badCharacter (Character.leadingByte c) front.length)

theorem decode_of_refused (refused : Refused text fault) : decode text = .error fault := by
  cases refused with
  | oddLength odd => exact if_pos odd
  | badCharacter even split digits foreign =>
    rw [decode, if_neg (by rw [even]; decide), split, decodePairs_of_foreign digits foreign,
      Nat.zero_add]

/-- A text is hexadecimal, or there is a reason why it is not. -/
theorem exists_decode_or_refused (text : String) :
    (∃ bytes, decode text = .ok bytes) ∨ ∃ fault, Refused text fault := by
  rcases Nat.mod_two_eq_zero_or_one text.utf8ByteSize with even | odd
  · rcases forall_mem_or_exists_first IsDigit text.toList with
      digits | ⟨front, c, back, split, digits, foreign⟩
    · rw [utf8ByteSize_of_isDigit digits] at even
      obtain ⟨bytes, written⟩ := exists_encodeChars even digits
      exact Or.inl ⟨bytes, decode_eq_ok_iff.mpr (toLower_eq_encode_iff.mpr written)⟩
    · exact Or.inr ⟨_, .badCharacter even split digits foreign⟩
  · exact Or.inr ⟨_, .oddLength odd⟩

theorem decode_eq_error_iff : decode text = .error fault ↔ Refused text fault :=
  eq_error_iff_of_refused decode_of_refused (exists_decode_or_refused text)

/-- The texts that are read are those of an even number of digits. -/
theorem exists_decode_iff :
    (∃ bytes, decode text = .ok bytes) ↔
      text.toList.length % 2 = 0 ∧ ∀ c ∈ text.toList, IsDigit c := by
  simp only [decode_eq_ok_iff, toLower_eq_encode_iff]
  exact ⟨fun ⟨_, written⟩ => even_and_isDigit_of_encodeChars written,
    fun ⟨even, digits⟩ => exists_encodeChars even digits⟩

/-- The text of a byte string is in lowercase. -/
theorem toLower_encode (bytes : Bytes) : (encode bytes).toLower = encode bytes := by
  rw [toLower_eq_encode_iff, encode, String.toList_ofList]
  induction bytes with
  | nil => rfl
  | cons byte rest ih =>
    have high : byte.toNat / 16 < 16 := Nat.div_lt_of_lt_mul byte.toNat_lt
    have low : byte.toNat % 16 < 16 := Nat.mod_lt _ (by decide)
    show (digit (byte.toNat / 16)).toLower :: (digit (byte.toNat % 16)).toLower ::
      (encodeChars rest).map Char.toLower = _
    rw [toLower_digit high, toLower_digit low, ih]
    rfl

theorem decode_encode (bytes : Bytes) : decode (encode bytes) = .ok bytes :=
  decode_eq_ok_iff.mpr (toLower_encode bytes)

theorem encode_inj {first second : Bytes} (same : encode first = encode second) :
    first = second := by
  have read := decode_encode first
  rw [same, decode_encode second] at read
  exact (Except.ok.inj read).symm

end Hex

/-- No two digests share their text. -/
theorem Hash.toHex_inj {first second : Hash} (same : first.toHex = second.toHex) :
    first = second :=
  FixedBytes.ext (Hex.encode_inj same)

end Utxo
