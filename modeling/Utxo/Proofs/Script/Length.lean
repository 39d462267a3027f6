/-
**When a program is too long for a script.**

* `Program.length_toBytes`: a program is written in two bytes for each operand, and its data.
* `Program.overlong?_eq_some_iff`: which datum is found that no length byte can count.
* `Program.TooLong`: why a program has no script, by the length that is reported.
* `Program.encode_eq_error_iff`: a program is refused for nothing else.
* `Program.encode_limits`: which programs have a script, what it is, and what is reported where there is
  none.
-/

import Mathlib.Algebra.Ring.Nat
import Utxo.Proofs.Answer
import Utxo.Proofs.Script.Grammar

namespace Utxo

/-- The byte that tells how many data there are tells it exactly, if they fit. -/
theorem Operand.Fits.toNat_length {operand : Operand} (fits : operand.Fits) :
    (UInt8.ofNat operand.data.length).toNat = operand.data.length := by
  have small : operand.data.length < UInt8.size := Nat.lt_succ_of_le fits
  exact UInt8.toNat_ofNat_of_lt' small

namespace Program

variable {program : Program} {length : Nat}

/-- How many bytes a program takes: each operand two, and its data. -/
def size (program : Program) : Nat := (program.map fun operand => 2 + operand.data.length).sum

theorem length_toBytes (program : Program) : program.toBytes.length = program.size := by
  unfold toBytes size
  rw [List.length_flatMap]
  congr 1
  refine List.map_congr_left fun operand _ => ?_
  exact Nat.add_comm operand.data.length 2

/-- **The datum that is found is the first that no length byte can count.** -/
theorem overlong?_eq_some_iff :
    program.overlong? = some length ↔
      ∃ before operand behind, program = before ++ operand :: behind ∧ Fits before ∧
        maxVarBytes < operand.data.length ∧ operand.data.length = length := by
  unfold overlong?
  simp only [List.find?_map, Option.map_eq_some_iff, List.find?_eq_some_iff_append, Function.comp_apply,
    decide_eq_true_eq, Bool.not_eq_true', decide_eq_false_iff_not, Nat.not_lt]
  refine ⟨?_, ?_⟩
  · rintro ⟨operand, ⟨long, before, behind, same, fits⟩, rfl⟩
    exact ⟨before, operand, behind, same, fits, long, rfl⟩
  · rintro ⟨before, operand, behind, same, fits, long, rfl⟩
    exact ⟨operand, ⟨long, before, behind, same, fits⟩, rfl⟩

/-- **Why a program has no script**, by the length that is reported. A datum is too long; this is said of
the first such datum, and before anything else. Or each datum fits, and the whole does not. -/
inductive TooLong : Program → Nat → Prop
  | datum (before : Program) (operand : Operand) (behind : Program)
      (fits : ∀ earlier ∈ before, earlier.data.length ≤ 255) (long : 255 < operand.data.length) :
      TooLong (before ++ operand :: behind) operand.data.length
  | whole (program : Program) (fits : ∀ operand ∈ program, operand.data.length ≤ 255)
      (long : 255 < program.size) : TooLong program program.size

theorem encode_of_overlong (found : program.overlong? = some length) :
    encode program = .error ⟨length⟩ := by
  unfold encode
  rw [found]

theorem TooLong.encode_eq (long : TooLong program length) : encode program = .error ⟨length⟩ := by
  cases long with
  | datum before operand behind fits long =>
    exact encode_of_overlong (overlong?_eq_some_iff.mpr
      ⟨before, operand, behind, rfl, fits, long, rfl⟩)
  | whole _ fits long =>
    rw [← length_toBytes] at long ⊢
    rw [encode_of_fits fits, VarBytes.ofBytes]
    exact dif_neg (Nat.not_le.mpr long)

/-- **A program has a script, or is too long.** -/
theorem exists_encode_or_tooLong (program : Program) :
    (∃ script, encode program = .ok script) ∨ ∃ fault : FieldTooLong, TooLong program fault.length := by
  cases found : program.overlong? with
  | some length =>
    obtain ⟨before, operand, behind, rfl, fits, long, -⟩ := overlong?_eq_some_iff.mp found
    exact Or.inr ⟨⟨_⟩, .datum before operand behind fits long⟩
  | none =>
    have fits := overlong?_eq_none_iff.mp found
    by_cases short : program.size ≤ 255
    · rw [← length_toBytes] at short
      exact Or.inl (exists_encode short)
    · exact Or.inr ⟨⟨_⟩, .whole program fits (Nat.not_le.mp short)⟩

/-- **A program is refused just for being too long.** -/
theorem encode_eq_error_iff {fault : FieldTooLong} :
    encode program = .error fault ↔ TooLong program fault.length :=
  eq_error_iff_of_refused TooLong.encode_eq (exists_encode_or_tooLong program)

/-- A program has a script just when every datum fits, and the whole. -/
theorem exists_encode_iff :
    (∃ script, encode program = .ok script) ↔ program.Fits ∧ program.size ≤ maxVarBytes := by
  refine ⟨?_, ?_⟩
  · rintro ⟨script, encoded⟩
    obtain ⟨fits, same⟩ := encode_eq_ok_iff.mp encoded
    rw [← length_toBytes, ← same]
    exact ⟨fits, script.length_le⟩
  · rintro ⟨-, short⟩
    rw [← length_toBytes] at short
    exact exists_encode short

/-- **A program is never cut to fit a script, and is refused just when it does not fit.** It has a script
just when each datum has at most 255 bytes, and two bytes for each operand and its data are at most 255 in
all. The script is then written as the grammar says, and no length in it is cut: neither its own nor those
of the data. A program that has none is refused for the first datum that is too long, wherever this
stands, and for the whole only if there is none. -/
theorem encode_limits (program : Program) :
    ((∃ script, encode program = .ok script) ↔
      (∀ operand ∈ program, operand.data.length ≤ 255) ∧ program.size ≤ 255) ∧
    (∀ script, encode program = .ok script →
      Written program script.toBytes ∧ script.lengthByte.toNat = script.toBytes.length ∧
        ∀ operand ∈ program, (UInt8.ofNat operand.data.length).toNat = operand.data.length) ∧
    ∀ fault, encode program = .error fault ↔ TooLong program fault.length := by
  refine ⟨exists_encode_iff, fun script encoded => ?_, fun fault => encode_eq_error_iff⟩
  obtain ⟨fits, same⟩ := encode_eq_ok_iff.mp encoded
  refine ⟨?_, script.toNat_lengthByte, fun operand member => (fits operand member).toNat_length⟩
  rw [same]
  exact written_toBytes fits

/-- So many copies. -/
def copies (count : Nat) : Program := List.replicate count (.control .duplicate)

theorem fits_copies (count : Nat) : (copies count).Fits := by
  intro operand member
  rw [List.eq_of_mem_replicate member]
  exact Nat.zero_le _

theorem size_copies (count : Nat) : (copies count).size = count * 2 := by
  unfold size copies
  rw [List.map_replicate, List.sum_replicate_nat]
  rfl

/-- Of operands without data, a script holds 127. Behind more than those, it is a datum that is reported
nevertheless, and of two that are too long the first. -/
theorem encode_limits_copies :
    (∃ script, encode (copies 127) = .ok script ∧ script.lengthByte.toNat = script.toBytes.length) ∧
      encode (copies 128) = .error ⟨256⟩ ∧
      encode (copies 128 ++ .push .signature (List.replicate 300 7) ::
        [.push .publicKey (List.replicate 256 7)]) = .error ⟨300⟩ := by
  refine ⟨?_, ?_, ?_⟩
  · have short : (copies 127).size ≤ 255 := by
      rw [size_copies]
      decide
    obtain ⟨script, encoded⟩ := (encode_limits (copies 127)).1.mpr ⟨fits_copies 127, short⟩
    exact ⟨script, encoded, ((encode_limits (copies 127)).2.1 script encoded).2.1⟩
  · have long : 255 < (copies 128).size := by
      rw [size_copies]
      decide
    have whole := TooLong.whole (copies 128) (fits_copies 128) long
    rw [size_copies] at whole
    exact ((encode_limits _).2.2 ⟨256⟩).mpr whole
  · have count : (Operand.push .signature (List.replicate 300 7)).data.length = 300 :=
      List.length_replicate
    have datum := TooLong.datum (copies 128) (.push .signature (List.replicate 300 7))
      [.push .publicKey (List.replicate 256 7)] (fits_copies 128) (by rw [count]; decide)
    rw [count] at datum
    exact ((encode_limits _).2.2 ⟨300⟩).mpr datum

end Program

end Utxo
