/-
**The grammar of scripts.**

* `Program.Written`: the byte string that a program is written as, operand by operand.
* `Program.written_iff`: it is the program's bytes, and there is one just where each datum fits.
* `Program.encode_of_decode`: what a program that was read is written as again, if it fits a script.
* `Program.decode_grammar`: a byte string is read as a program just where it is written as this program;
  writing and reading undo each other.
-/

import Utxo.Proofs.Script.Codec

namespace Utxo.Program

variable {program : Program} {bytes : Bytes}

/-- **The grammar of scripts.** A push is its opcode's byte, the length of its data in one byte, and the
data; a control is its opcode's byte and the length zero. -/
inductive Written : Program → Bytes → Prop
  | nil : Written [] []
  | push (kind : PushKind) (data : Bytes) {rest : Program} {behind : Bytes}
      (fits : data.length ≤ 255) (written : Written rest behind) :
      Written (.push kind data :: rest)
        ((Opcode.push kind).byte :: UInt8.ofNat data.length :: (data ++ behind))
  | control (instruction : Control) {rest : Program} {behind : Bytes}
      (written : Written rest behind) :
      Written (.control instruction :: rest) ((Opcode.control instruction).byte :: 0 :: behind)

theorem Written.fits (written : Written program bytes) : program.Fits := by
  induction written with
  | nil => exact fits_nil
  | push kind data fits _ ih => exact fits_cons.mpr ⟨fits, ih⟩
  | control instruction _ ih => exact fits_cons.mpr ⟨Nat.zero_le _, ih⟩

theorem Written.eq_toBytes (written : Written program bytes) : bytes = program.toBytes := by
  induction written with
  | nil => rfl
  | push kind data fits _ ih =>
    rw [toBytes_cons, ih]
    rfl
  | control instruction _ ih =>
    rw [toBytes_cons, ih]
    rfl

theorem written_toBytes (fits : program.Fits) : Written program program.toBytes := by
  induction program with
  | nil => exact .nil
  | cons operand rest ih =>
    obtain ⟨here, later⟩ := fits_cons.mp fits
    rw [toBytes_cons]
    cases operand with
    | push kind data => exact .push kind data here (ih later)
    | control instruction => exact .control instruction (ih later)

theorem written_iff : Written program bytes ↔ program.Fits ∧ bytes = program.toBytes := by
  refine ⟨fun written => ⟨written.fits, written.eq_toBytes⟩, ?_⟩
  rintro ⟨fits, rfl⟩
  exact written_toBytes fits

/-- **What was read is written again as it was**, unless it is too long for a script. -/
theorem encode_of_decode (read : decode bytes = .ok program) :
    encode program = if fits : bytes.length ≤ maxVarBytes then .ok ⟨bytes, fits⟩
      else .error ⟨bytes.length⟩ := by
  obtain ⟨fits, rfl⟩ := decode_eq_ok_iff.mp read
  exact encode_of_fits fits

/-- **Reading accepts just the grammar, and inverts writing.** A byte string of any length is read as a
program just where it is written as that program. A script that was written is read back; and a program
that was read is written again as the same bytes, or refused by their number if a script cannot hold
them. -/
theorem decode_grammar :
    (∀ bytes program, decode bytes = .ok program ↔ Written program bytes) ∧
    (∀ program script, encode program = .ok script → decode script.toBytes = .ok program) ∧
    ∀ bytes program, decode bytes = .ok program →
      (bytes.length ≤ 255 → ∃ script, encode program = .ok script ∧ script.toBytes = bytes) ∧
      (255 < bytes.length → encode program = .error ⟨bytes.length⟩) := by
  refine ⟨fun bytes program => ?_, fun program script => decode_of_encode, fun bytes program read => ?_⟩
  · rw [decode_eq_ok_iff, written_iff]
  · rw [encode_of_decode read]
    refine ⟨fun short => ⟨⟨bytes, short⟩, dif_pos short, rfl⟩, fun long => ?_⟩
    exact dif_neg (Nat.not_le.mpr long)

/-- A datum of 255 bytes and a control are a program that no script can hold. -/
theorem decode_grammar_longest :
    decode (0x03 :: 0xff :: (List.replicate 255 7 ++ [0xac, 0])) =
        .ok [.push .publicKeyHash (List.replicate 255 7), .control .checkSig] ∧
      encode [.push .publicKeyHash (List.replicate 255 7), .control .checkSig] = .error ⟨259⟩ := by
  have count : (List.replicate 255 (7 : UInt8)).length = 255 := List.length_replicate
  have written := Written.push .publicKeyHash (List.replicate 255 7) (Nat.le_of_eq count)
    (.control .checkSig .nil)
  rw [count] at written
  have read := (decode_grammar.1 _ _).mpr written
  have refused := (decode_grammar.2.2 _ _ read).2
  rw [List.length_cons, List.length_cons, List.length_append, count] at refused
  exact ⟨read, refused (by decide)⟩

end Utxo.Program
