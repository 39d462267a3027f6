/-
**Programs: lists of operands, and their byte form.**

Each operand is its opcode's byte, the length of its data in one byte, and its data.

* `Program.encode`: the bytes, if every datum and the whole fit a length-limited field.
* `Program.decode`: the operands in a byte string of any length.
-/

import Utxo.Error

namespace Utxo

/-- A list of operands, the first to run first. -/
abbrev Program := List Operand

namespace Operand

/-- The bytes of an operand whose data a byte can count. -/
def toBytes (operand : Operand) : Bytes :=
  operand.opcode.byte :: UInt8.ofNat operand.data.length :: operand.data

/-- The operand of an opcode's byte and its data. -/
def ofParts (opcode : UInt8) (data : Bytes) : Except DecodeError Operand :=
  match Opcode.ofByte? opcode with
  | some (.push kind) => .ok (.push kind data)
  | some (.control instruction) =>
    if data.isEmpty then .ok (.control instruction)
    else .error (.operandLength opcode (UInt8.ofNat data.length))
  | none => .error (.unknownOpcode opcode)

/-- The bytes of an operand: the opcode's, and its data behind their length. -/
def partsDecoder : Decoder (UInt8 × VarBytes) := do
  return (← Decoder.uint8, ← Decoder.varBytes)

/-- Reads an operand; its parts are read before they are judged. -/
def decoder : Decoder Operand := do
  let (opcode, data) ← partsDecoder
  match ofParts opcode data.toBytes with
  | .ok operand => return operand
  | .error fault => throw fault

/-- An operand that was read took at least one byte. -/
theorem remaining_lt_of_decoder {reader after : Reader} {operand : Operand}
    (read : decoder reader = .ok operand after) : after.remaining < reader.remaining := by
  obtain ⟨⟨opcode, data⟩, between, parts, judged⟩ := Decoder.bind_eq_ok_iff.mp read
  have same : between = after := by
    cases verdict : ofParts opcode data.toBytes with
    | ok operand =>
      simp only [verdict] at judged
      exact (Decoder.pure_eq_ok_iff.mp judged).2
    | error fault =>
      simp only [verdict] at judged
      cases judged
  subst same
  simp only [partsDecoder, Decoder.varBytes, Decoder.uint8, Decoder.bind_eq_ok_iff,
    Decoder.map_eq_ok_iff, Decoder.pure_eq_ok_iff] at parts
  obtain ⟨_, _, ⟨_, first, _⟩, _, _, ⟨_, _, ⟨_, second, _⟩, _, _, third, _, rfl⟩, _, rfl⟩ := parts
  have := Decoder.remaining_of_take first
  have := Decoder.remaining_of_take second
  have := Decoder.remaining_of_take third
  omega

end Operand

namespace Program

/-- The bytes of all operands, one behind the other. -/
def toBytes (program : Program) : Bytes := program.flatMap Operand.toBytes

/-- The first datum that no length byte can count, by its length. -/
def overlong? (program : Program) : Option Nat :=
  (program.map fun operand => operand.data.length).find? fun length => maxVarBytes < length

/-- The program as a length-limited field. -/
def encode (program : Program) : Except FieldTooLong VarBytes :=
  match program.overlong? with
  | some length => .error ⟨length⟩
  | none => VarBytes.ofBytes program.toBytes

/-- Reads operands until nothing lies ahead, behind those of `done`, kept latest first. -/
def readOnto (done : List Operand) (reader : Reader) : Except DecodeError Program :=
  if reader.isEmpty then .ok done.reverse
  else match _read : Operand.decoder reader with
    | .ok operand after => readOnto (operand :: done) after
    | .error fault _ => .error fault
termination_by reader.remaining
decreasing_by exact Operand.remaining_lt_of_decoder _read

/-- The program in a byte string. -/
def decode (bytes : Bytes) : Except DecodeError Program := readOnto [] (Reader.ofBytes bytes)

end Program

end Utxo
