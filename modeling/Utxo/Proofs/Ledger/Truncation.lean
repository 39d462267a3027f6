/-
**Every byte string begins a transaction, is cut short, or counts wrongly.**

* `Transaction.decoderWith_orderly`, `Block.decoderWith_orderly`: with any careful rule for counts, what is
  decided does not depend on the bytes around; `Wire.RefusesCut`: so a form that is cut short is refused
  for want of bytes, be it of a field, of a count, of an element or of a list.
* `Transaction.decoderWith_completable`: every want of bytes in a transaction can be mended, also one that
  is told at a count, before any element is read.
* `Transaction.Miscounted`: a negative count behind a well-formed beginning;
  `Transaction.decoderWith_eq_negativeCount_iff`: a transaction is refused for no other negative count.
* `Transaction.decoder_sorts`: the three cases, each with its answer.
-/

import Utxo.Proofs.Ledger.Forms
import Utxo.Proofs.Wire.Truncation

namespace Utxo

open Decoder

/-! ### Inputs, outputs and headers -/

namespace TxInput

theorem decoder_orderly : decoder.Orderly :=
  hash_orderly.bind fun _ => uint32_orderly.bind fun _ => varBytes_orderly.bind fun _ =>
    uint32_orderly.bind fun _ => .pure _

theorem decoder_plain : decoder.Plain :=
  hash_plain.bind fun _ => uint32_plain.bind fun _ => varBytes_plain.bind fun _ =>
    uint32_plain.bind fun _ => .pure _

theorem decoder_completable : decoder.Completable :=
  .bind hash_orderly hash_completable fun _ => .bind uint32_orderly uint32_completable fun _ =>
    .bind varBytes_orderly varBytes_completable fun _ =>
      .bind uint32_orderly uint32_completable fun _ => .pure _

end TxInput

namespace TxOutput

theorem decoder_orderly : decoder.Orderly :=
  int32_orderly.bind fun _ => varBytes_orderly.bind fun _ => .pure _

theorem decoder_plain : decoder.Plain :=
  int32_plain.bind fun _ => varBytes_plain.bind fun _ => .pure _

theorem decoder_completable : decoder.Completable :=
  .bind int32_orderly int32_completable fun _ =>
    .bind varBytes_orderly varBytes_completable fun _ => .pure _

end TxOutput

theorem BlockHeader.decoder_orderly : BlockHeader.decoder.Orderly :=
  int32_orderly.bind fun _ => hash_orderly.bind fun _ => hash_orderly.bind fun _ =>
    int64_orderly.bind fun _ => int32_orderly.bind fun _ => int32_orderly.bind fun _ => .pure _

/-! ### Transactions -/

namespace Transaction

variable {rule : CountRule} {reader after : Reader} {count : Int64} {fault : DecodeError}

theorem inputs_completable (careful : rule.Careful) :
    (Wire.decodeList (rule TxInput.minSize) TxInput.decoder).Completable :=
  careful.list_completable TxInput.decoder_inverts TxInput.decoder_orderly TxInput.decoder_plain
    TxInput.decoder_completable (by decide) TxInput.minSize_le

theorem outputs_completable (careful : rule.Careful) :
    (Wire.decodeList (rule TxOutput.minSize) TxOutput.decoder).Completable :=
  careful.list_completable TxOutput.decoder_inverts TxOutput.decoder_orderly TxOutput.decoder_plain
    TxOutput.decoder_completable (by decide) TxOutput.minSize_le

theorem inputs_orderly (careful : rule.Careful) :
    (Wire.decodeList (rule TxInput.minSize) TxInput.decoder).Orderly :=
  careful.list_orderly (by decide) TxInput.decoder_orderly

theorem outputs_orderly (careful : rule.Careful) :
    (Wire.decodeList (rule TxOutput.minSize) TxOutput.decoder).Orderly :=
  careful.list_orderly (by decide) TxOutput.decoder_orderly

theorem decoderWith_orderly (careful : rule.Careful) : (decoderWith rule).Orderly :=
  int32_orderly.bind fun _ => (inputs_orderly careful).bind fun _ =>
    (outputs_orderly careful).bind fun _ => int32_orderly.bind fun _ => .pure _

/-- **Every want of bytes in a transaction can be mended.** -/
theorem decoderWith_completable (careful : rule.Careful) : (decoderWith rule).Completable :=
  .bind int32_orderly int32_completable fun _ =>
    .bind (inputs_orderly careful) (inputs_completable careful) fun _ =>
      .bind (outputs_orderly careful) (outputs_completable careful) fun _ =>
        .bind int32_orderly int32_completable fun _ => .pure _

theorem decoderWith_failsBy (careful : rule.Careful) :
    (decoderWith rule).FailsBy DecodeError.IsOfReads := by
  have fixed {α : Type} {field : Decoder α} (plain : field.Plain) :
      field.FailsBy DecodeError.IsOfReads := plain.mono fun _ => Or.inl
  exact (fixed int32_plain).bind fun _ =>
    (careful.list_failsBy (fixed TxInput.decoder_plain)).bind fun _ =>
      (careful.list_failsBy (fixed TxOutput.decoder_plain)).bind fun _ =>
        (fixed int32_plain).bind fun _ => .pure _

/-- **A negative count stands behind a well-formed beginning**: behind the version, in the place of the
number of inputs, or behind the inputs, in the place of the number of outputs. -/
def Miscounted (count : Int64) (bytes : Bytes) : Prop :=
  count < 0 ∧
    ((∃ version, LittleEndian.ofInt32 version ++ LittleEndian.ofInt64 count <+: bytes) ∨
      ∃ version, ∃ inputs : List TxInput, inputs.length < Wire.countBound ∧
        LittleEndian.ofInt32 version ++ Wire.encodeList inputs ++ LittleEndian.ofInt64 count <+: bytes)

/-- A negative count is refused where it was read, and no other. -/
theorem decoderWith_eq_negativeCount_iff (careful : rule.Careful) :
    (∃ after, decoderWith rule reader = .error (.negativeCount count) after) ↔
      Miscounted count reader.ahead := by
  have inputs := Inverts.list careful.toLawful TxInput.decoder_inverts (by decide) TxInput.minSize_le
  have fixed {left after : Reader} : int32 left ≠ .error (.negativeCount count) after := by
    intro failed
    obtain ⟨_, _, ⟨⟩⟩ := int32_plain _ _ _ failed
  simp only [decoderWith, bind_eq_error_iff, fixed, pure_ne_error,
    careful.list_eq_negativeCount_iff TxInput.decoder_plain,
    careful.list_eq_negativeCount_iff TxOutput.decoder_plain, int32_inverts.iff, inputs.iff,
    true_and, false_or, and_false, exists_false, or_false]
  simp only [Miscounted, ← Reader.exists_passes_iff, Reader.passes_append]
  constructor
  · rintro ⟨after, version, atInputs, front, ⟨negative, last⟩ |
      ⟨inputs, atOutputs, ⟨⟨countable, -⟩, list⟩, negative, last⟩⟩
    · exact ⟨negative, Or.inl ⟨version, after, atInputs, front, last⟩⟩
    · exact ⟨negative, Or.inr ⟨version, inputs, countable, after, atOutputs,
        ⟨atInputs, front, list⟩, last⟩⟩
  · rintro ⟨negative, ⟨version, after, atInputs, front, last⟩ |
      ⟨version, inputs, countable, after, atOutputs, ⟨atInputs, front, list⟩, last⟩⟩
    · exact ⟨after, version, atInputs, front, Or.inl ⟨negative, last⟩⟩
    · exact ⟨after, version, atInputs, front,
        Or.inr ⟨inputs, atOutputs, ⟨⟨countable, fun _ _ => trivial⟩, list⟩, negative, last⟩⟩

/-- Bytes are missing, and of a transaction that means that it is cut short. -/
theorem decoderWith_truncates_iff (careful : rule.Careful) :
    (decoderWith rule).Truncates reader ↔ CutShort encode Countable reader.ahead :=
  (decoderWith_inverts careful.toLawful).truncated_iff_cutShort (decoderWith_orderly careful)
    (decoderWith_completable careful)

theorem decoder_orderly : decoder.Orderly := decoderWith_orderly count_careful

end Transaction

/-! ### Blocks -/

namespace Block

theorem decoderWith_orderly {rule : CountRule} (careful : rule.Careful) : (decoderWith rule).Orderly :=
  int32_orderly.bind fun _ => BlockHeader.decoder_orderly.bind fun _ =>
    (careful.list_orderly (by decide) (Transaction.decoderWith_orderly careful)).bind fun _ => .pure _

theorem decoder_orderly : decoder.Orderly := decoderWith_orderly count_careful

end Block

/-! ### What is refused for want of bytes -/

/-- **A form that is cut short is refused for want of bytes**, and more are needed than remain, if these
can be numbered. -/
def Wire.RefusesCut (α : Type) [Wire α] (fits : α → Prop) : Prop :=
  ∀ bytes, CutShort (Wire.encode : α → Bytes) fits bytes → ∃ needed remaining after,
    (Wire.decoder : Decoder α) (Reader.ofBytes bytes) = .error (.truncated needed remaining) after ∧
      (bytes.length < maxLength → remaining < needed)

theorem Wire.refusesCut {α : Type} [Wire α] {fits : α → Prop}
    (inverts : (Wire.decoder : Decoder α).Inverts Wire.encode fits)
    (orderly : (Wire.decoder : Decoder α).Orderly) : Wire.RefusesCut α fits := by
  intro bytes cut
  have truncates : (Wire.decoder : Decoder α).Truncates (Reader.ofBytes bytes) :=
    inverts.truncated_of_cutShort orderly cut
  obtain ⟨needed, remaining, after, failed⟩ := truncates_iff.mp truncates
  exact ⟨needed, remaining, after, failed, (orderly.truthful failed).2⟩

namespace Transaction

/-- **One of three cases, each with its answer.** -/
structure Sorted (bytes : Bytes) : Prop where
  /-- A transaction is read just where its form begins the bytes. -/
  read_iff : (∃ transaction after, decoder (Reader.ofBytes bytes) = .ok transaction after) ↔
    StartsWith encode Countable bytes
  /-- Bytes are missing just where they begin the form of a transaction and are not all of it. -/
  truncated_iff : (∃ needed remaining after,
      decoder (Reader.ofBytes bytes) = .error (.truncated needed remaining) after) ↔
    CutShort encode Countable bytes
  /-- A negative count is told just where it stands behind a well-formed beginning. -/
  negativeCount_iff : ∀ count,
    (∃ after, decoder (Reader.ofBytes bytes) = .error (.negativeCount count) after) ↔
      Miscounted count bytes
  /-- There is no other case. -/
  complete : StartsWith encode Countable bytes ∨ CutShort encode Countable bytes ∨
    ∃ count, Miscounted count bytes
  whole_alone : StartsWith encode Countable bytes →
    ¬ CutShort encode Countable bytes ∧ ∀ count, ¬ Miscounted count bytes
  cut_alone : CutShort encode Countable bytes → ∀ count, ¬ Miscounted count bytes
  count_unique : ∀ {count other}, Miscounted count bytes → Miscounted other bytes → count = other
  /-- Where bytes are missing, more are needed than remain, if these can be numbered. -/
  truthful : ∀ {needed remaining after},
    decoder (Reader.ofBytes bytes) = .error (.truncated needed remaining) after →
      bytes.length < maxLength → remaining < needed

theorem sorted (bytes : Bytes) : Sorted bytes := by
  have read_iff : (∃ transaction after, decoder (Reader.ofBytes bytes) = .ok transaction after) ↔
      StartsWith encode Countable bytes := decoder_inverts.ok_iff_startsWith
  have truncated_iff : (∃ needed remaining after,
      decoder (Reader.ofBytes bytes) = .error (.truncated needed remaining) after) ↔
        CutShort encode Countable bytes := by
    rw [← truncates_iff, decoder, decoderWith_truncates_iff count_careful]
    rfl
  have negativeCount_iff (count : Int64) :
      (∃ after, decoder (Reader.ofBytes bytes) = .error (.negativeCount count) after) ↔
        Miscounted count bytes := decoderWith_eq_negativeCount_iff count_careful
  refine ⟨read_iff, truncated_iff, negativeCount_iff, ?_, ?_, ?_, ?_, ?_⟩
  · rw [← read_iff, ← truncated_iff]
    simp only [← negativeCount_iff]
    cases answer : decoder (Reader.ofBytes bytes) with
    | ok transaction after => exact Or.inl ⟨transaction, after, rfl⟩
    | error fault after =>
      rcases decoderWith_failsBy count_careful _ _ _ answer with ⟨needed, remaining, rfl⟩ | ⟨count, rfl⟩
      · exact Or.inr (Or.inl ⟨needed, remaining, after, rfl⟩)
      · exact Or.inr (Or.inr ⟨count, after, rfl⟩)
  · rw [← read_iff, ← truncated_iff]
    simp only [← negativeCount_iff]
    rintro ⟨transaction, after, answer⟩
    simp [answer]
  · rw [← truncated_iff]
    simp only [← negativeCount_iff]
    rintro ⟨needed, remaining, after, answer⟩
    simp [answer]
  · intro count other
    rw [← negativeCount_iff, ← negativeCount_iff]
    rintro ⟨after, answer⟩ ⟨left, again⟩
    rw [answer] at again
    cases again
    rfl
  · exact fun failed => (decoder_orderly.truthful failed).2

/-- **Every byte string begins a transaction, is cut short, or counts wrongly**, and is answered
accordingly. In a block, a header, an input or an output, bytes are missing wherever its form is cut. -/
theorem decoder_sorts :
    (∀ bytes, Sorted bytes) ∧ Wire.RefusesCut Block Block.Countable ∧
      Wire.RefusesCut BlockHeader (fun _ => True) ∧ Wire.RefusesCut TxInput (fun _ => True) ∧
      Wire.RefusesCut TxOutput (fun _ => True) :=
  ⟨sorted, Wire.refusesCut Block.decoder_inverts Block.decoder_orderly,
    Wire.refusesCut BlockHeader.decoder_inverts BlockHeader.decoder_orderly,
    Wire.refusesCut TxInput.decoder_inverts TxInput.decoder_orderly,
    Wire.refusesCut TxOutput.decoder_inverts TxOutput.decoder_orderly⟩

/-- Seven bytes of a count can go on as a count, and the eighth can make it negative; two inputs that cannot
lie behind their count are missing from the first byte on; and an output is cut inside its script. -/
theorem decoder_sorts_cutCount :
    CutShort encode Countable ([1, 0, 0, 0] ++ List.replicate 7 0xff) ∧
      Miscounted (-1) ([1, 0, 0, 0] ++ List.replicate 8 0xff) ∧
      CutShort encode Countable [1, 0, 0, 0, 2, 0, 0, 0, 0, 0, 0, 0] ∧
      (∃ needed remaining after, decoder (Reader.ofBytes [1, 0, 0, 0, 2, 0, 0, 0, 0, 0, 0, 0]) =
        .error (.truncated needed remaining) after ∧ remaining < needed) ∧
      StartsWith encode Countable (twoInputs.encode ++ [7]) ∧
      ∃ needed remaining after, TxOutput.decoder (Reader.ofBytes [0xfe, 0xff, 0xff, 0xff, 2, 0xac]) =
        .error (.truncated needed remaining) after ∧ remaining < needed := by
  obtain ⟨sorted, -, -, -, outputs⟩ := decoder_sorts
  have crowded : decoder (Reader.ofBytes [1, 0, 0, 0, 2, 0, 0, 0, 0, 0, 0, 0]) =
      .error (.truncated 82 0) _ := rfl
  refine ⟨?_, ?_, ?_, ?_, ?_, ?_⟩
  · exact (sorted _).truncated_iff.mp ⟨8, 7, _, rfl⟩
  · exact ((sorted _).negativeCount_iff (-1)).mp ⟨_, rfl⟩
  · exact (sorted _).truncated_iff.mp ⟨82, 0, _, crowded⟩
  · exact ⟨82, 0, _, crowded, (sorted _).truthful crowded (by decide)⟩
  · exact (sorted _).read_iff.mp ⟨twoInputs, _, rfl⟩
  · have cut : CutShort TxOutput.encode (fun _ => True) [0xfe, 0xff, 0xff, 0xff, 2, 0xac] :=
      ⟨⟨-2, ⟨[0xac, 0xac], by decide⟩⟩, trivial, ⟨[0xac], rfl⟩, by decide⟩
    obtain ⟨needed, remaining, after, failed, more⟩ := outputs _ cut
    exact ⟨needed, remaining, after, failed, more (by decide)⟩

end Transaction

end Utxo
