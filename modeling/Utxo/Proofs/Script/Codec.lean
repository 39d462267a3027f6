/-
**The byte form of programs is read back, and nothing else is read.**

* `Operand.decoder_inverts`: an operand is read where its bytes lie ahead, if one byte can count its
  data.
* `Program.readOnto_eq_ok_iff`: operands are read until nothing lies ahead, by induction on what does.
* `Program.decode_eq_ok_iff`: a byte string is a program just when it is the program's bytes.
* `Program.encode_eq_ok_iff`: a program fits a field just when its data fit theirs and its bytes fit.
-/

import Utxo.Script.Program
import Utxo.Proofs.Wire.Inversion

namespace Utxo

namespace Operand

/-- One byte can count the data. -/
def Fits (operand : Operand) : Prop := operand.data.length ≤ maxVarBytes

theorem toBytes_ne_nil (operand : Operand) : operand.toBytes ≠ [] := List.cons_ne_nil _ _

/-- The bytes of an operand that fits are its opcode's and those of a length-limited field. -/
theorem toBytes_eq (operand : Operand) (fits : operand.Fits) :
    operand.toBytes = [operand.opcode.byte] ++ Wire.encodeVarBytes ⟨operand.data, fits⟩ := rfl

/-- Parts are those of an operand when they are its opcode's byte and its data. -/
theorem ofParts_eq_ok_iff {opcode : UInt8} {data : Bytes} {operand : Operand} :
    ofParts opcode data = .ok operand ↔ opcode = operand.opcode.byte ∧ data = operand.data := by
  constructor
  · intro judged
    unfold ofParts at judged
    split at judged
    next kind found =>
      cases judged
      exact ⟨(Opcode.byte_of_ofByte? found).symm, rfl⟩
    next instruction found =>
      split at judged
      next empty =>
        cases judged
        exact ⟨(Opcode.byte_of_ofByte? found).symm, List.isEmpty_iff.mp empty⟩
      next => cases judged
    next => cases judged
  · rintro ⟨rfl, rfl⟩
    unfold ofParts
    rw [Opcode.ofByte?_byte]
    cases operand with
    | push kind data => rfl
    | control instruction => rfl

theorem partsDecoder_inverts :
    partsDecoder.Inverts (fun parts => [parts.1] ++ Wire.encodeVarBytes parts.2) fun _ => True := by
  rintro reader after ⟨opcode, field⟩
  simp only [partsDecoder, Decoder.bind_eq_ok_iff, Decoder.pure_eq_ok_iff,
    Decoder.uint8_inverts.iff, Decoder.varBytes_inverts.iff, true_and, Reader.passes_append]
  constructor
  · rintro ⟨_, between, first, _, _, second, same, rfl⟩
    cases same
    exact ⟨between, first, second⟩
  · rintro ⟨between, first, second⟩
    exact ⟨opcode, between, first, field, after, second, rfl, rfl⟩

/-- What an operand's decoder makes of the parts that it read. -/
theorem decoder_eq_ok_iff_parts {reader after : Reader} {operand : Operand} :
    decoder reader = .ok operand after ↔
      ∃ opcode field, partsDecoder reader = .ok (opcode, field) after ∧
        ofParts opcode field.toBytes = .ok operand := by
  rw [decoder, Decoder.bind_eq_ok_iff]
  constructor
  · rintro ⟨⟨opcode, field⟩, between, parts, judged⟩
    cases verdict : ofParts opcode field.toBytes with
    | ok found =>
      simp only [verdict] at judged
      obtain ⟨rfl, rfl⟩ := Decoder.pure_eq_ok_iff.mp judged
      exact ⟨opcode, field, parts, verdict⟩
    | error fault =>
      simp only [verdict] at judged
      cases judged
  · rintro ⟨opcode, field, parts, verdict⟩
    refine ⟨(opcode, field), after, parts, ?_⟩
    simp only [verdict]
    exact Decoder.pure_eq_ok_iff.mpr ⟨rfl, rfl⟩

/-- **An operand is read where its bytes lie ahead**, if it fits. -/
theorem decoder_inverts : decoder.Inverts toBytes Fits := by
  intro reader after operand
  rw [decoder_eq_ok_iff_parts]
  constructor
  · rintro ⟨opcode, field, parts, verdict⟩
    have passes := (partsDecoder_inverts.iff.mp parts).2
    obtain ⟨rfl, same⟩ := ofParts_eq_ok_iff.mp verdict
    have fits : operand.Fits := by
      rw [Fits, ← same]
      exact field.length_le
    have whole : field = ⟨operand.data, fits⟩ := VarBytes.ext same
    refine ⟨fits, ?_⟩
    rw [toBytes_eq operand fits, ← whole]
    exact passes
  · rintro ⟨fits, passes⟩
    refine ⟨operand.opcode.byte, ⟨operand.data, fits⟩, ?_, ofParts_eq_ok_iff.mpr ⟨rfl, rfl⟩⟩
    exact partsDecoder_inverts.iff.mpr ⟨trivial, passes⟩

end Operand

namespace Program

/-- One byte can count each of the data. -/
def Fits (program : Program) : Prop := ∀ operand ∈ program, operand.Fits

variable {program : Program}

@[simp] theorem toBytes_nil : toBytes [] = [] := rfl

@[simp] theorem toBytes_cons (operand : Operand) (rest : Program) :
    toBytes (operand :: rest) = operand.toBytes ++ toBytes rest := List.flatMap_cons

@[simp] theorem fits_nil : Fits [] := by
  rintro operand ⟨⟩

@[simp] theorem fits_cons {operand : Operand} {rest : Program} :
    Fits (operand :: rest) ↔ operand.Fits ∧ Fits rest :=
  List.forall_mem_cons

theorem toBytes_eq_nil_iff : program.toBytes = [] ↔ program = [] := by
  cases program with
  | nil => simp
  | cons operand rest => simp [operand.toBytes_ne_nil]

/-! ### Reading -/

theorem readOnto_of_ok {done : List Operand} {reader after : Reader} {operand : Operand}
    (more : ¬ reader.isEmpty = true) (first : Operand.decoder reader = .ok operand after) :
    readOnto done reader = readOnto (operand :: done) after := by
  rw [readOnto, if_neg more]
  split
  next _ _ read =>
    rw [first] at read
    cases read
    rfl
  next _ _ read =>
    rw [first] at read
    cases read

theorem readOnto_of_error {done : List Operand} {reader after : Reader} {fault : DecodeError}
    (more : ¬ reader.isEmpty = true) (first : Operand.decoder reader = .error fault after) :
    readOnto done reader = .error fault := by
  rw [readOnto, if_neg more]
  split
  next _ _ read =>
    rw [first] at read
    cases read
  next _ _ read =>
    rw [first] at read
    cases read
    rfl

/-- What lies ahead and is a program has a first operand, which is read. -/
theorem exists_decoder_of_ahead {read : Program} {reader : Reader} (fits : read.Fits)
    (ahead : reader.ahead = read.toBytes) (more : ¬ reader.isEmpty = true) :
    ∃ operand rest after, read = operand :: rest ∧ Operand.decoder reader = .ok operand after ∧
      Fits rest ∧ after.ahead = toBytes rest := by
  cases read with
  | nil => exact absurd (Reader.isEmpty_iff.mpr ahead) more
  | cons operand rest =>
    obtain ⟨here, later⟩ := fits_cons.mp fits
    let after := Reader.startingAt (reader.position + operand.toBytes.length) (toBytes rest)
    refine ⟨operand, rest, after, rfl, ?_, later, rfl⟩
    exact Operand.decoder_inverts.iff.mpr ⟨here, ahead, rfl⟩

/-- **Operands are read until nothing lies ahead.** -/
theorem readOnto_eq_ok_iff (done : List Operand) (reader : Reader) :
    readOnto done reader = .ok program ↔
      ∃ read : Program, program = done.reverse ++ read ∧ read.Fits ∧ reader.ahead = read.toBytes := by
  induction done, reader using readOnto.induct with
  | case1 done reader nothing =>
    have ended := Reader.isEmpty_iff.mp nothing
    rw [readOnto, if_pos nothing, Except.ok.injEq]
    constructor
    · rintro rfl
      exact ⟨[], (List.append_nil _).symm, fits_nil, ended⟩
    · rintro ⟨read, rfl, _, ahead⟩
      rw [toBytes_eq_nil_iff.mp (ahead.symm.trans ended), List.append_nil]
  | case2 done reader more operand after first ih =>
    rw [readOnto_of_ok more first, ih]
    obtain ⟨here, passes⟩ := Operand.decoder_inverts.iff.mp first
    constructor
    · rintro ⟨read, rfl, fits, ahead⟩
      refine ⟨operand :: read, by simp, fits_cons.mpr ⟨here, fits⟩, ?_⟩
      rw [toBytes_cons, ← ahead]
      exact passes.1
    · rintro ⟨read, rfl, fits, ahead⟩
      obtain ⟨_, rest, _, rfl, same, later, behind⟩ := exists_decoder_of_ahead fits ahead more
      rw [first] at same
      cases same
      exact ⟨rest, by simp, later, behind⟩
  | case3 done reader more fault after first =>
    -- were this a program, its first operand would have been read
    rw [readOnto_of_error more first]
    constructor
    · rintro ⟨⟩
    · rintro ⟨read, _, fits, ahead⟩
      obtain ⟨_, _, _, _, same, _⟩ := exists_decoder_of_ahead fits ahead more
      rw [first] at same
      cases same

/-- **A byte string decodes to a program just when it is its bytes**, and every datum fits. -/
theorem decode_eq_ok_iff {bytes : Bytes} :
    decode bytes = .ok program ↔ program.Fits ∧ bytes = program.toBytes := by
  rw [decode, readOnto_eq_ok_iff]
  constructor
  · rintro ⟨read, rfl, fits, ahead⟩
    exact ⟨fits, ahead⟩
  · rintro ⟨fits, rfl⟩
    exact ⟨program, rfl, fits, rfl⟩

/-! ### Writing -/

/-- No datum is too long just when each fits. -/
theorem overlong?_eq_none_iff : program.overlong? = none ↔ program.Fits := by
  rw [overlong?, List.find?_eq_none]
  constructor
  · intro short operand member
    have within := short _ (List.mem_map_of_mem member)
    rw [decide_eq_true_eq] at within
    exact Nat.le_of_not_lt within
  · intro fits length member
    obtain ⟨operand, inside, rfl⟩ := List.mem_map.mp member
    rw [decide_eq_true_eq]
    exact Nat.not_lt_of_le (fits operand inside)

/-- Where every datum fits, the whole decides. -/
theorem encode_of_fits (fits : program.Fits) :
    encode program = VarBytes.ofBytes program.toBytes := by
  unfold encode
  rw [overlong?_eq_none_iff.mpr fits]

/-- **A program is written as its bytes**, if every datum and the whole fit. -/
theorem encode_eq_ok_iff {script : VarBytes} :
    encode program = .ok script ↔ program.Fits ∧ script.toBytes = program.toBytes := by
  constructor
  · intro encoded
    unfold encode at encoded
    split at encoded
    · cases encoded
    next short =>
      refine ⟨overlong?_eq_none_iff.mp short, ?_⟩
      rw [VarBytes.ofBytes] at encoded
      split at encoded
      · cases encoded
        rfl
      · cases encoded
  · rintro ⟨fits, same⟩
    rw [encode_of_fits fits, ← same]
    exact VarBytes.ofBytes_toBytes script

/-- The data of a program fit if its bytes do. -/
theorem fits_of_length_le (short : program.toBytes.length ≤ maxVarBytes) : program.Fits := by
  induction program with
  | nil => exact fits_nil
  | cons operand rest ih =>
    rw [toBytes_cons, List.length_append] at short
    have here : operand.Fits := by
      have within : operand.toBytes.length = operand.data.length + 2 := rfl
      rw [Operand.Fits]
      omega
    exact fits_cons.mpr ⟨here, ih (by omega)⟩

/-- A program whose bytes fit has a field. -/
theorem exists_encode (short : program.toBytes.length ≤ maxVarBytes) :
    ∃ script, encode program = .ok script :=
  ⟨⟨program.toBytes, short⟩, encode_eq_ok_iff.mpr ⟨fits_of_length_le short, rfl⟩⟩

/-- Bytes that fit a field are read as the program that they are of. -/
theorem decode_of_eq_toBytes {bytes : Bytes} (same : bytes = program.toBytes)
    (short : program.toBytes.length ≤ maxVarBytes) : decode bytes = .ok program :=
  decode_eq_ok_iff.mpr ⟨fits_of_length_le short, same⟩

/-- **What was written is read back.** -/
theorem decode_of_encode {script : VarBytes} (encoded : encode program = .ok script) :
    decode script.toBytes = .ok program :=
  decode_eq_ok_iff.mpr (encode_eq_ok_iff.mp encoded)

end Program

end Utxo
