/-
**A script that is cut in two.**

* `Operand.decoder_orderly`: how an operand is read does not depend on the bytes around it.
* `Program.readOnto_onto`: nor on what was read before, by induction on what lies ahead.
* `Program.decode_append_of_ok`: behind a script that is read, the next is read as if it stood alone;
  `Program.decode_append_of_error`: behind one that is refused for more than a want of bytes, nothing is
  read.
-/

import Utxo.Proofs.Script.Codec
import Utxo.Proofs.Wire.Surroundings

namespace Utxo

namespace Operand

/-- Parts that are no operand's are not said to be too short. -/
theorem not_isTruncated_of_ofParts {opcode : UInt8} {data : Bytes} {fault : DecodeError}
    (judged : ofParts opcode data = .error fault) : ¬ fault.IsTruncated := by
  rintro ⟨needed, remaining, rfl⟩
  unfold ofParts at judged
  split at judged
  · cases judged
  · split at judged <;> cases judged
  · cases judged

theorem partsDecoder_orderly : partsDecoder.Orderly :=
  Decoder.uint8_orderly.bind fun _ => Decoder.varBytes_orderly.bind fun _ => .pure _

theorem decoder_orderly : decoder.Orderly := by
  refine partsDecoder_orderly.bind fun parts => ?_
  obtain ⟨opcode, data⟩ := parts
  cases judged : ofParts opcode data.toBytes with
  | ok operand =>
    simp only [judged]
    exact .pure operand
  | error fault =>
    simp only [judged]
    exact .throw (not_isTruncated_of_ofParts judged)

end Operand

namespace Program

variable {program : Program} {fault : DecodeError}

/-- Something lies ahead, also amid other bytes. -/
theorem not_isEmpty_amid {reader : Reader} (more : ¬ reader.isEmpty = true) (before : Nat)
    (behind : Bytes) : ¬ (reader.amid before behind).isEmpty = true := by
  rw [Reader.isEmpty_iff] at more ⊢
  exact fun nothing => more (List.append_eq_nil_iff.mp nothing).1

/-- **What stands before is of no account**, be it bytes or operands that were read from them. -/
theorem readOnto_onto (done base : List Operand) (reader : Reader) (before : Nat) :
    readOnto (done ++ base) (reader.amid before []) =
      (base.reverse ++ ·) <$> readOnto done reader := by
  induction done, reader using readOnto.induct with
  | case1 done reader nothing =>
    have ended : (reader.amid before []).isEmpty = true := by
      rw [Reader.isEmpty_iff] at nothing ⊢
      show reader.ahead ++ [] = []
      rw [nothing, List.append_nil]
    rw [readOnto, if_pos ended, readOnto, if_pos nothing, List.reverse_append]
    rfl
  | case2 done reader more operand after first ih =>
    have again := Operand.decoder_orderly.ok_amid first before []
    rw [readOnto_of_ok more first, readOnto_of_ok (not_isEmpty_amid more before []) again, ← ih]
    rfl
  | case3 done reader more fault after first =>
    have again := Operand.decoder_orderly.error_amid first before [] fun _ => rfl
    rw [readOnto_of_error more first, readOnto_of_error (not_isEmpty_amid more before []) again]
    rfl

theorem readOnto_amid_of_ok (done : List Operand) (reader : Reader)
    (read : readOnto done reader = .ok program) (behind : Bytes) :
    readOnto done (reader.amid 0 behind) = (program ++ ·) <$> decode behind := by
  induction done, reader using readOnto.induct with
  | case1 done reader nothing =>
    rw [readOnto, if_pos nothing] at read
    cases read
    have ended := Reader.isEmpty_iff.mp nothing
    have rest : reader.amid 0 behind = (Reader.ofBytes behind).amid reader.position [] := by
      refine Reader.ext (Nat.zero_add _) ?_
      show reader.ahead ++ behind = behind ++ []
      rw [ended, List.nil_append, List.append_nil]
    rw [rest]
    exact readOnto_onto [] done (Reader.ofBytes behind) reader.position
  | case2 done reader more operand after first ih =>
    rw [readOnto_of_ok more first] at read
    have again := Operand.decoder_orderly.ok_amid first 0 behind
    rw [readOnto_of_ok (not_isEmpty_amid more 0 behind) again]
    exact ih read
  | case3 done reader more fault after first =>
    rw [readOnto_of_error more first] at read
    cases read

theorem readOnto_amid_of_error (done : List Operand) (reader : Reader)
    (failed : readOnto done reader = .error fault) (decided : ¬ fault.IsTruncated) (behind : Bytes) :
    readOnto done (reader.amid 0 behind) = .error fault := by
  induction done, reader using readOnto.induct with
  | case1 done reader nothing =>
    rw [readOnto, if_pos nothing] at failed
    cases failed
  | case2 done reader more operand after first ih =>
    rw [readOnto_of_ok more first] at failed
    have again := Operand.decoder_orderly.ok_amid first 0 behind
    rw [readOnto_of_ok (not_isEmpty_amid more 0 behind) again]
    exact ih failed
  | case3 done reader more other after first =>
    rw [readOnto_of_error more first] at failed
    cases failed
    have again := Operand.decoder_orderly.error_amid first 0 behind fun given => absurd given decided
    exact readOnto_of_error (not_isEmpty_amid more 0 behind) again

/-- **Behind a script that is read, the next is read as if it stood alone**, and refused alike. -/
theorem decode_append_of_ok {front : Bytes} (read : decode front = .ok program) (back : Bytes) :
    decode (front ++ back) = (program ++ ·) <$> decode back :=
  readOnto_amid_of_ok [] (Reader.ofBytes front) read back

/-- **A script that is refused for more than a want of bytes is refused whatever stands behind it.** -/
theorem decode_append_of_error {front : Bytes} (failed : decode front = .error fault)
    (decided : ¬ fault.IsTruncated) (back : Bytes) : decode (front ++ back) = .error fault :=
  readOnto_amid_of_error [] (Reader.ofBytes front) failed decided back

end Program

end Utxo
