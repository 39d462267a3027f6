/-
**Which operand a script is refused for.**

A script is refused for the first of its operands that is malformed, as if this one stood at its start.

* `Operand.Malformed`: the four ways not to begin with an operand, each with what is then reported.
* `Operand.leads_or_malformed`: bytes begin with an operand, or are malformed;
  `Operand.exists_malformed_iff`: never both.
* `Operand.Malformed.exists_decoder`: malformed bytes are refused, and what is reported.
* `Program.decode_toBytes_append`: operands in front of bytes change nothing about what is read behind.
* `Program.exists_front`: every byte string is a program in front of nothing, or of malformed bytes, by
  induction on its length.
* `Program.decode_firstMalformed`: these together.
-/

import Utxo.Proofs.Answer
import Utxo.Proofs.Script.Splitting

namespace Utxo

/-! ### Fields behind their length -/

namespace Decoder

variable {length : UInt8} {behind : Bytes}

theorem uint8_of_cons (position : Nat) (byte : UInt8) (rest : Bytes) :
    uint8 (.startingAt position (byte :: rest)) = .ok byte (.startingAt (position + 1) rest) :=
  uint8_inverts.iff.mpr ⟨trivial, rfl, rfl⟩

/-- A field that is cut short wants as many bytes as it announces. -/
theorem varBytes_of_short (position : Nat) (short : behind.length < length.toNat) :
    varBytes (.startingAt position (length :: behind)) =
      .error (.truncated length.toNat behind.length) (.startingAt (position + 1) behind) := by
  rw [varBytes, bind_of_ok (uint8_of_cons position length behind), bind_eq_error_iff]
  exact Or.inl (take_eq_error_iff.mpr ⟨short, rfl, rfl⟩)

/-- A field that is there is read, with the length that it announces. -/
theorem exists_varBytes (position : Nat) (whole : length.toNat ≤ behind.length) :
    ∃ field after, varBytes (.startingAt position (length :: behind)) = .ok field after ∧
      field.lengthByte = length := by
  let data : FixedBytes length.toNat := ⟨behind.take length.toNat, List.length_take_of_le whole⟩
  let after := Reader.advance (.startingAt (position + 1) behind) length.toNat
  have taken : take length.toNat (.startingAt (position + 1) behind) = .ok data after :=
    take_eq_ok_iff.mpr ⟨whole, rfl, rfl⟩
  refine ⟨⟨data.toBytes, data.length_le_maxVarBytes⟩, after, ?_, ?_⟩
  · rw [varBytes, bind_of_ok (uint8_of_cons position length behind), bind_of_ok taken]
    rfl
  · rw [VarBytes.lengthByte, VarBytes.length, data.length_toBytes, UInt8.ofNat_toNat]

end Decoder

/-- A byte has no opcode when it is the byte of none. -/
theorem Opcode.ofByte?_eq_none_iff {byte : UInt8} :
    ofByte? byte = none ↔ ∀ known : Opcode, known.byte ≠ byte := by
  refine ⟨?_, fun unknown => ?_⟩
  · rintro missing known rfl
    rw [ofByte?_byte] at missing
    cases missing
  · rw [ofByte?, List.find?_eq_none]
    intro known _
    simpa using unknown known

namespace Operand

/-! ### Malformed operands -/

/-- **Why bytes do not begin with an operand.** The length is missing; or there are fewer data than it
announces, whatever the opcode's byte is; or a control has data; or there is no such opcode. -/
inductive Malformed : Bytes → DecodeError → Prop
  | unmeasured (opcode : UInt8) : Malformed [opcode] (.truncated 1 0)
  | cut (opcode length : UInt8) (behind : Bytes) (short : behind.length < length.toNat) :
      Malformed (opcode :: length :: behind) (.truncated length.toNat behind.length)
  | laden (instruction : Control) (length : UInt8) (behind : Bytes)
      (whole : length.toNat ≤ behind.length) (laden : length ≠ 0) :
      Malformed ((Opcode.control instruction).byte :: length :: behind)
        (.operandLength (Opcode.control instruction).byte length)
  | unknown (opcode length : UInt8) (behind : Bytes) (whole : length.toNat ≤ behind.length)
      (unknown : ∀ known : Opcode, known.byte ≠ opcode) :
      Malformed (opcode :: length :: behind) (.unknownOpcode opcode)

/-- The bytes begin with those of an operand that fits. -/
def Leads (bytes : Bytes) : Prop :=
  ∃ (operand : Operand) (rest : Bytes), operand.Fits ∧ bytes = operand.toBytes ++ rest

variable {bytes behind : Bytes} {fault : DecodeError} {opcode length : UInt8}

theorem leads_of_push (kind : PushKind) (whole : length.toNat ≤ behind.length) :
    Leads ((Opcode.push kind).byte :: length :: behind) := by
  let field : FixedBytes length.toNat := ⟨behind.take length.toNat, List.length_take_of_le whole⟩
  refine ⟨.push kind field.toBytes, behind.drop length.toNat, field.length_le_maxVarBytes, ?_⟩
  unfold toBytes opcode data
  simp [field, List.length_take_of_le whole]

theorem leads_of_control (instruction : Control) (behind : Bytes) :
    Leads ((Opcode.control instruction).byte :: 0 :: behind) :=
  ⟨.control instruction, behind, Nat.zero_le _, rfl⟩

/-- **Bytes begin with an operand, or are malformed.** -/
theorem leads_or_malformed (nonempty : bytes ≠ []) : Leads bytes ∨ ∃ fault, Malformed bytes fault := by
  match bytes, nonempty with
  | [opcode], _ => exact Or.inr ⟨_, .unmeasured opcode⟩
  | opcode :: length :: behind, _ =>
    by_cases short : behind.length < length.toNat
    · exact Or.inr ⟨_, .cut opcode length behind short⟩
    have whole : length.toNat ≤ behind.length := Nat.le_of_not_lt short
    cases found : Opcode.ofByte? opcode with
    | none =>
      exact Or.inr ⟨_, .unknown opcode length behind whole (Opcode.ofByte?_eq_none_iff.mp found)⟩
    | some known =>
      rw [← Opcode.byte_of_ofByte? found]
      cases known with
      | push kind => exact Or.inl (leads_of_push kind whole)
      | control instruction =>
        by_cases bare : length = 0
        · rw [bare]
          exact Or.inl (leads_of_control instruction behind)
        · exact Or.inr ⟨_, .laden instruction length behind whole bare⟩

/-! ### What is reported -/

/-- A control that has data is refused with their number. -/
theorem ofParts_of_laden (instruction : Control) {field : VarBytes} (laden : field.lengthByte ≠ 0) :
    ofParts (Opcode.control instruction).byte field.toBytes =
      .error (.operandLength (Opcode.control instruction).byte field.lengthByte) := by
  have loaded : ¬ field.toBytes.isEmpty = true := by
    intro empty
    refine laden ?_
    rw [VarBytes.lengthByte, VarBytes.length, List.isEmpty_iff.mp empty]
    rfl
  unfold ofParts
  rw [Opcode.ofByte?_byte]
  exact if_neg loaded

theorem ofParts_of_unknown (unknown : ∀ known : Opcode, known.byte ≠ opcode) (data : Bytes) :
    ofParts opcode data = .error (.unknownOpcode opcode) := by
  unfold ofParts
  rw [Opcode.ofByte?_eq_none_iff.mpr unknown]

theorem partsDecoder_of_cons (position : Nat) (opcode : UInt8) (rest : Bytes) :
    partsDecoder (.startingAt position (opcode :: rest)) =
      (Prod.mk opcode <$> Decoder.varBytes) (.startingAt (position + 1) rest) := by
  rw [partsDecoder, Decoder.bind_of_ok (Decoder.uint8_of_cons position opcode rest), map_eq_pure_bind]

/-- What the parts are judged to be is what the operand is refused for. -/
theorem exists_decoder_of_judged (position : Nat) (whole : length.toNat ≤ behind.length)
    (judged : ∀ field : VarBytes, field.lengthByte = length →
      ofParts opcode field.toBytes = .error fault) :
    ∃ after, decoder (.startingAt position (opcode :: length :: behind)) = .error fault after := by
  obtain ⟨field, after, read, announced⟩ := Decoder.exists_varBytes (position + 1) whole
  have parts : partsDecoder (.startingAt position (opcode :: length :: behind)) =
      .ok (opcode, field) after := by
    rw [partsDecoder_of_cons]
    exact Decoder.map_eq_ok_iff.mpr ⟨field, read, rfl⟩
  refine ⟨after, ?_⟩
  rw [decoder, Decoder.bind_of_ok parts]
  simp only [judged field announced]
  rfl

theorem exists_decoder_of_parts {position : Nat} {after : Reader}
    (failed : (Prod.mk opcode <$> Decoder.varBytes) (.startingAt (position + 1) bytes) =
      .error fault after) :
    ∃ after, decoder (.startingAt position (opcode :: bytes)) = .error fault after := by
  rw [← partsDecoder_of_cons] at failed
  exact ⟨after, Decoder.bind_eq_error_iff.mpr (Or.inl failed)⟩

/-- **Malformed bytes are refused as they are malformed.** -/
theorem Malformed.exists_decoder (malformed : Malformed bytes fault) (position : Nat) :
    ∃ after, decoder (.startingAt position bytes) = .error fault after := by
  cases malformed with
  | unmeasured opcode => exact exists_decoder_of_parts rfl
  | cut opcode length behind short =>
    have missing := Decoder.varBytes_of_short (position + 1) short
    exact exists_decoder_of_parts (Decoder.map_eq_error_iff.mpr missing)
  | laden instruction length behind whole laden =>
    refine exists_decoder_of_judged position whole fun field announced => ?_
    rw [← announced] at laden ⊢
    exact ofParts_of_laden instruction laden
  | unknown opcode length behind whole unknown =>
    exact exists_decoder_of_judged position whole fun field _ => ofParts_of_unknown unknown field.toBytes

/-- **Bytes are malformed just where they do not begin with an operand.** -/
theorem exists_malformed_iff (nonempty : bytes ≠ []) :
    (∃ fault, Malformed bytes fault) ↔ ¬ Leads bytes := by
  refine ⟨?_, (leads_or_malformed nonempty).resolve_left⟩
  rintro ⟨fault, malformed⟩ ⟨operand, rest, fits, same⟩
  obtain ⟨after, failed⟩ := malformed.exists_decoder 0
  have read : decoder (.startingAt 0 bytes) =
      .ok operand (.startingAt (0 + operand.toBytes.length) rest) :=
    decoder_inverts.iff.mpr ⟨fits, same, rfl⟩
  rw [failed] at read
  cases read

theorem Malformed.ne_nil (malformed : Malformed bytes fault) : bytes ≠ [] := by
  cases malformed <;> exact List.cons_ne_nil _ _

end Operand

namespace Program

variable {bytes tail : Bytes} {fault : DecodeError}

/-! ### The first malformed operand -/

/-- **Operands in front of bytes are read, and change nothing about what is read behind them.** -/
theorem decode_toBytes_append {program : Program} (fits : program.Fits) (tail : Bytes) :
    decode (program.toBytes ++ tail) = (program ++ ·) <$> decode tail :=
  decode_append_of_ok (decode_eq_ok_iff.mpr ⟨fits, rfl⟩) tail

theorem decode_of_malformed (malformed : Operand.Malformed tail fault) :
    decode tail = .error fault := by
  obtain ⟨after, failed⟩ := malformed.exists_decoder 0
  refine readOnto_of_error ?_ failed
  intro nothing
  exact malformed.ne_nil (Reader.isEmpty_iff.mp nothing)

/-- **Every byte string is a program, in front of nothing or of malformed bytes.** -/
theorem exists_front (bytes : Bytes) :
    ∃ (program : Program) (tail : Bytes), program.Fits ∧ bytes = program.toBytes ++ tail ∧
      (tail = [] ∨ ∃ fault, Operand.Malformed tail fault) := by
  induction counted : bytes.length using Nat.strongRecOn generalizing bytes with
  | _ count ih =>
    by_cases nothing : bytes = []
    · exact ⟨[], [], fits_nil, nothing, Or.inl rfl⟩
    rcases Operand.leads_or_malformed nothing with ⟨operand, rest, here, rfl⟩ | malformed
    · have shorter : rest.length < count := by
        have taken := List.length_pos_iff.mpr operand.toBytes_ne_nil
        rw [List.length_append] at counted
        omega
      obtain ⟨program, tail, later, same, ends⟩ := ih rest.length shorter rest rfl
      refine ⟨operand :: program, tail, fits_cons.mpr ⟨here, later⟩, ?_, ends⟩
      rw [toBytes_cons, List.append_assoc, same]
    · exact ⟨[], bytes, fits_nil, rfl, Or.inr malformed⟩

/-- The bytes are a program in front of bytes that are malformed in this way. -/
def FirstMalformed (bytes : Bytes) (fault : DecodeError) : Prop :=
  ∃ (program : Program) (tail : Bytes), program.Fits ∧ bytes = program.toBytes ++ tail ∧
    Operand.Malformed tail fault

theorem FirstMalformed.decode_eq (first : FirstMalformed bytes fault) :
    decode bytes = .error fault := by
  obtain ⟨program, tail, fits, rfl, malformed⟩ := first
  rw [decode_toBytes_append fits, decode_of_malformed malformed]
  rfl

/-- **A script is refused just for the first operand that is malformed.** -/
theorem decode_eq_error_iff : decode bytes = .error fault ↔ FirstMalformed bytes fault := by
  refine eq_error_iff_of_refused FirstMalformed.decode_eq ?_
  obtain ⟨program, tail, fits, same, rfl | ⟨fault, malformed⟩⟩ := exists_front bytes
  · rw [List.append_nil] at same
    exact Or.inl ⟨program, decode_eq_ok_iff.mpr ⟨fits, same⟩⟩
  · exact Or.inr ⟨fault, program, tail, fits, same, malformed⟩

/-- **The first malformed operand is reported, whatever stands before it.** Behind operands whose data
fit, bytes are read as if they stood alone, and refused with the same report. Bytes that do not begin with
an operand are reported in one of four ways: the length is missing; or fewer data than announced are left,
which is said whatever the opcode's byte is; or a control announces data; or the opcode is unknown. And
nothing else is ever reported, nor for any other place. -/
theorem decode_firstMalformed :
    (∀ (program : Program) (tail : Bytes), program.Fits →
      (∀ read, decode tail = .ok read → decode (program.toBytes ++ tail) = .ok (program ++ read)) ∧
      ∀ fault, decode tail = .error fault → decode (program.toBytes ++ tail) = .error fault) ∧
    (∀ tail : Bytes, tail ≠ [] →
      ((¬ ∃ (operand : Operand) (rest : Bytes), operand.Fits ∧ tail = operand.toBytes ++ rest) ↔
        ∃ fault, Operand.Malformed tail fault)) ∧
    (∀ tail fault, Operand.Malformed tail fault → decode tail = .error fault) ∧
    ∀ bytes fault, decode bytes = .error fault ↔
      ∃ (program : Program) (tail : Bytes), program.Fits ∧ bytes = program.toBytes ++ tail ∧
        Operand.Malformed tail fault := by
  refine ⟨fun program tail fits => ⟨fun read ok => ?_, fun fault failed => ?_⟩, fun tail nonempty => ?_,
    fun tail fault => decode_of_malformed, fun bytes fault => decode_eq_error_iff⟩
  · rw [decode_toBytes_append fits, ok]
    rfl
  · rw [decode_toBytes_append fits, failed]
    rfl
  · exact (Operand.exists_malformed_iff nonempty).symm

/-- A push that can be read. -/
def pushedByte : Program := [.push .signature [7]]

/-- Behind a push: a length is missing; data are, which counts for more than that there is no such opcode;
a control has data, which counts for more than what stands behind it; and there is no such opcode. -/
theorem decode_firstMalformed_pushedByte :
    decode (pushedByte.toBytes ++ [0x76]) = .error (.truncated 1 0) ∧
      decode (pushedByte.toBytes ++ [0x42, 3, 1]) = .error (.truncated 3 1) ∧
      decode (pushedByte.toBytes ++ [0xac, 1, 1, 0x42]) = .error (.operandLength 0xac 1) ∧
      decode (pushedByte.toBytes ++ [0x42, 1, 1, 0x76, 1]) = .error (.unknownOpcode 0x42) ∧
      decode (pushedByte.toBytes ++ pushedByte.toBytes) = .ok (pushedByte ++ pushedByte) ∧
      ¬ ∃ (operand : Operand) (rest : Bytes), operand.Fits ∧ [0x42, 3, 1] = operand.toBytes ++ rest := by
  obtain ⟨behind, malformed, refused, -⟩ := decode_firstMalformed
  have fits : pushedByte.Fits := fits_of_length_le (by decide)
  have unknown := Opcode.ofByte?_eq_none_iff.mp (show Opcode.ofByte? 0x42 = none from rfl)
  have cut : Operand.Malformed [0x42, 3, 1] (.truncated 3 1) := .cut 0x42 3 [1] (by decide)
  refine ⟨?_, ?_, ?_, ?_, ?_, ?_⟩
  · exact (behind pushedByte _ fits).2 _ (refused _ _ (.unmeasured 0x76))
  · exact (behind pushedByte _ fits).2 _ (refused _ _ cut)
  · exact (behind pushedByte _ fits).2 _
      (refused _ _ (.laden .checkSig 1 [1, 0x42] (by decide) (by decide)))
  · exact (behind pushedByte _ fits).2 _
      (refused _ _ (.unknown 0x42 1 [1, 0x76, 1] (by decide) unknown))
  · exact (behind pushedByte _ fits).1 _ (decode_of_eq_toBytes rfl (by decide))
  · exact (malformed [0x42, 3, 1] (List.cons_ne_nil _ _)).mpr ⟨_, cut⟩

end Program

end Utxo
