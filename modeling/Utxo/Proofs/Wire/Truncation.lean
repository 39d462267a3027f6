/-
**Bytes that are missing, and bytes that could complete them.**

* `Decoder.CutShort`: bytes that begin a form but are not all of it. `Decoder.Inverts.truncated_of_cutShort`:
  an orderly decoder says of them that bytes are missing.
* `Decoder.Completable`: where a decoder says that bytes are missing, there are bytes that complete what it
  reads. `Completable.bind`, `exactly` and their kin build it up; `CountRule.Careful.list_completable`: a
  list that a rule refuses at its count, because its elements cannot lie behind it, could have gone on too.
* `Decoder.Inverts.truncated_iff_cutShort`: of a completable decoder, a want of bytes is a cut form.
-/

import Utxo.Proofs.Wire.Surroundings

namespace Utxo

/-! ### Zero bytes at the end -/

namespace LittleEndian

theorem decode_zeros (spare : Nat) : decode (List.replicate spare 0) = 0 := by
  induction spare with
  | zero => rfl
  | succ spare ih =>
    rw [List.replicate_succ, decode, ih]
    rfl

/-- High zero bytes do not change a number. -/
theorem decode_append_zeros (bytes : Bytes) (spare : Nat) :
    decode (bytes ++ List.replicate spare 0) = decode bytes := by
  induction bytes with
  | nil => exact decode_zeros spare
  | cons byte rest ih => rw [List.cons_append, decode, ih, decode]

end LittleEndian

/-- What lies ahead can be passed. -/
theorem Reader.exists_passes_iff {reader : Reader} {bytes : Bytes} :
    (∃ after, reader.Passes bytes after) ↔ bytes <+: reader.ahead := by
  constructor
  · rintro ⟨after, ahead, -⟩
    exact ⟨after.ahead, ahead.symm⟩
  · rintro ⟨behind, same⟩
    exact ⟨startingAt (reader.position + bytes.length) behind, same.symm, rfl⟩

namespace Decoder

variable {α β : Type} {reader after : Reader} {decoder : Decoder α} {form : α → Bytes}
  {fits : α → Prop} {bytes : Bytes}

/-! ### Forms that begin, and forms that are cut short -/

/-- The bytes begin with the form of a value. -/
def StartsWith (form : α → Bytes) (fits : α → Prop) (bytes : Bytes) : Prop :=
  ∃ value, fits value ∧ form value <+: bytes

/-- **The bytes begin the form of a value, but are not all of it.** -/
def CutShort (form : α → Bytes) (fits : α → Prop) (bytes : Bytes) : Prop :=
  ∃ value, fits value ∧ bytes <+: form value ∧ bytes ≠ form value

/-- The decoder says that bytes are missing. -/
def Truncates (decoder : Decoder α) (reader : Reader) : Prop :=
  ∃ fault after, decoder reader = .error fault after ∧ fault.IsTruncated

theorem truncates_iff : decoder.Truncates reader ↔
    ∃ needed remaining after, decoder reader = .error (.truncated needed remaining) after := by
  constructor
  · rintro ⟨_, after, failed, needed, remaining, rfl⟩
    exact ⟨needed, remaining, after, failed⟩
  · rintro ⟨needed, remaining, after, failed⟩
    exact ⟨_, after, failed, needed, remaining, rfl⟩

/-- A value is read where the bytes begin with a form. -/
theorem Inverts.ok_iff_startsWith (inverts : decoder.Inverts form fits) :
    (∃ value after, decoder reader = .ok value after) ↔ StartsWith form fits reader.ahead := by
  refine exists_congr fun value => ?_
  rw [← Reader.exists_passes_iff, ← exists_and_left]
  exact exists_congr fun after => inverts.iff

/-- **Of a form that is cut short, an orderly decoder says that bytes are missing**: any other answer
would be the same with the missing bytes behind. -/
theorem Inverts.truncated_of_cutShort (inverts : decoder.Inverts form fits) (orderly : decoder.Orderly)
    (cut : CutShort form fits reader.ahead) : decoder.Truncates reader := by
  obtain ⟨value, fit, ⟨missing, same⟩, apart⟩ := cut
  have passes : (reader.amid 0 missing).Passes (form value)
      (Reader.startingAt (0 + reader.position + (form value).length) []) :=
    ⟨same.trans (List.append_nil _).symm, rfl⟩
  have whole := inverts.iff.mpr ⟨fit, passes⟩
  cases answer : decoder reader with
  | ok other after =>
    have again := orderly.ok_amid answer 0 missing
    rw [whole] at again
    have ahead : [] = after.ahead ++ missing := congrArg Reader.ahead (EStateM.Result.ok.inj again).2
    have nothing := (List.append_eq_nil_iff.mp ahead.symm).2
    rw [nothing, List.append_nil] at same
    exact absurd same apart
  | error fault after =>
    by_cases truncated : fault.IsTruncated
    · exact ⟨fault, after, answer, truncated⟩
    · have again := orderly.error_amid answer 0 missing fun given => absurd given truncated
      rw [whole] at again
      cases again

/-! ### Bytes that can be completed -/

/-- Nothing lies ahead, or the decoder says that bytes are missing. -/
def Wanting (decoder : Decoder α) (reader : Reader) : Prop :=
  reader.ahead = [] ∨ decoder.Truncates reader

/-- **What is missing can be supplied**: with some bytes behind, a value is read, and all of them. -/
def Completable (decoder : Decoder α) : Prop :=
  ∀ reader, decoder.Wanting reader →
    ∃ more value after, decoder (reader.amid 0 more) = .ok value after ∧ after.ahead = []

/-- A sequence wants bytes where its first part does, or behind it where the second does. -/
theorem Wanting.of_bind {first : Decoder α} {next : α → Decoder β}
    (wanting : (first >>= next).Wanting reader) :
    first.Wanting reader ∨ ∃ value between, first reader = .ok value between ∧
      (next value).Wanting between := by
  rcases wanting with spent | ⟨fault, after, failed, truncated⟩
  · exact Or.inl (Or.inl spent)
  · rcases bind_eq_error_iff.mp failed with front | ⟨value, between, read, back⟩
    · exact Or.inl (Or.inr ⟨fault, after, front, truncated⟩)
    · exact Or.inr ⟨value, between, read, Or.inr ⟨fault, after, back, truncated⟩⟩

namespace Completable

protected theorem pure (value : α) : Completable (pure value) := by
  rintro reader (spent | ⟨fault, after, failed, -⟩)
  · exact ⟨[], value, reader, by rw [Reader.amid_nothing]; rfl, spent⟩
  · exact absurd failed (pure_ne_error value)

protected theorem take (needed : Nat) : (take needed).Completable := by
  intro reader wanting
  have short : reader.remaining ≤ needed := by
    rcases wanting with spent | ⟨fault, after, failed, -⟩
    · rw [reader.remaining_eq, spent]
      exact Nat.zero_le _
    · exact Nat.le_of_lt (take_eq_error_iff.mp failed).1
  let more : Bytes := List.replicate (needed - reader.remaining) 0
  have length : (reader.ahead ++ more).length = needed := by
    rw [List.length_append, List.length_replicate, ← reader.remaining_eq]
    omega
  have passes : (reader.amid 0 more).Passes (reader.ahead ++ more)
      (Reader.startingAt (0 + reader.position + (reader.ahead ++ more).length) []) :=
    ⟨(List.append_nil _).symm, rfl⟩
  exact ⟨more, ⟨_, length⟩, _, take_eq_ok_iff_passes.mpr passes, rfl⟩

protected theorem map (completable : decoder.Completable) (f : α → β) : (f <$> decoder).Completable := by
  intro reader wanting
  have also : decoder.Wanting reader := wanting.imp_right fun ⟨fault, after, failed, truncated⟩ =>
    ⟨fault, after, map_eq_error_iff.mp failed, truncated⟩
  obtain ⟨more, value, after, read, spent⟩ := completable reader also
  exact ⟨more, f value, after, map_eq_ok_iff.mpr ⟨value, read, rfl⟩, spent⟩

/-- The first part is completed, and the second behind it. -/
protected theorem bind {first : Decoder α} {next : α → Decoder β} (orderly : first.Orderly)
    (head : first.Completable) (tail : ∀ value, (next value).Completable) :
    (first >>= next).Completable := by
  intro reader wanting
  rcases wanting.of_bind with front | ⟨value, between, read, back⟩
  · obtain ⟨more, value, between, read, spent⟩ := head reader front
    obtain ⟨rest, result, after, back, ended⟩ := tail value between (Or.inl spent)
    have longer := orderly.ok_amid read 0 rest
    rw [Reader.amid_amid] at longer
    exact ⟨more ++ rest, result, after, bind_eq_ok_iff.mpr ⟨value, _, longer, back⟩, ended⟩
  · obtain ⟨rest, result, after, back, ended⟩ := tail value between back
    have longer := orderly.ok_amid read 0 rest
    exact ⟨rest, result, after, bind_eq_ok_iff.mpr ⟨value, _, longer, back⟩, ended⟩

/-- So many elements are completed one by one. -/
protected theorem exactly {element : Decoder α} (orderly : element.Orderly)
    (completable : element.Completable) (number : Nat) : (exactly number element).Completable :=
  exactly_of_closed Completable .pure (fun _ => .bind orderly completable) number

end Completable

theorem uint8_completable : uint8.Completable := (Completable.take 1).map _

theorem int32_completable : int32.Completable := (Completable.take 4).map _

theorem uint32_completable : uint32.Completable := (Completable.take 4).map _

theorem hash_completable : hash.Completable := .take 32

theorem varBytes_completable : varBytes.Completable :=
  .bind uint8_orderly uint8_completable fun _ =>
    .bind (.take _) (.take _) fun _ => .pure _

/-- A cut count can go on as one that is not negative. -/
theorem exists_count_of_short (short : reader.remaining < 8) :
    ∃ more number after, number < Wire.countBound ∧
      (reader.amid 0 more).Passes (Wire.encodeCount number) after ∧ after.ahead = [] := by
  let more : Bytes := List.replicate (8 - reader.remaining) 0
  have length : (reader.ahead ++ more).length = 8 := by
    rw [List.length_append, List.length_replicate, ← reader.remaining_eq]
    omega
  have small : LittleEndian.decode (reader.ahead ++ more) < Wire.countBound := by
    rw [LittleEndian.decode_append_zeros]
    refine Nat.lt_of_lt_of_le (LittleEndian.decode_lt reader.ahead) ?_
    rw [← reader.remaining_eq]
    exact Nat.le_trans (Nat.pow_le_pow_right (by decide) (Nat.le_of_lt_succ short)) (by decide)
  have written := LittleEndian.encode_decode (reader.ahead ++ more)
  rw [length] at written
  refine ⟨more, _, Reader.startingAt (0 + reader.position + 8) [], small, ⟨?_, ?_⟩, rfl⟩
  · rw [Wire.encodeCount, written]
    exact (List.append_nil _).symm
  · rw [Wire.encodeCount, LittleEndian.length_encode]
    rfl

/-- **Of a completable decoder, a want of bytes is a form that is cut short.** -/
theorem Inverts.truncated_iff_cutShort (inverts : decoder.Inverts form fits)
    (orderly : decoder.Orderly) (completable : decoder.Completable) :
    decoder.Truncates reader ↔ CutShort form fits reader.ahead := by
  refine ⟨fun truncated => ?_, inverts.truncated_of_cutShort orderly⟩
  obtain ⟨more, value, after, read, spent⟩ := completable reader (Or.inr truncated)
  obtain ⟨fit, ahead, -⟩ := inverts.iff.mp read
  rw [spent, List.append_nil] at ahead
  refine ⟨value, fit, ⟨more, ahead⟩, fun whole => ?_⟩
  -- all of a form would have been read
  obtain ⟨other, left, again⟩ : ∃ other left, decoder reader = .ok other left :=
    inverts.ok_iff_startsWith.mpr ⟨value, fit, whole ▸ List.prefix_refl reader.ahead⟩
  obtain ⟨_, _, failed, -⟩ := truncated
  rw [again] at failed
  cases failed

end Decoder

/-! ### Lists behind their count -/

namespace CountRule.Careful

open Decoder

variable {α : Type} {rule : CountRule} {element : Decoder α} {fits : α → Prop} {minSize : Nat}
  {reader : Reader}

/-- A list that wants bytes wants them behind a count, which may have to be completed first. -/
theorem exists_wanting [Wire α] (careful : rule.Careful) (inverts : element.Inverts Wire.encode fits)
    (plain : element.Plain) (positive : 0 < minSize)
    (least : ∀ value : α, minSize ≤ (Wire.encode value).length)
    (wanting : (Wire.decodeList (rule minSize) element).Wanting reader) :
    ∃ more number between, number < Wire.countBound ∧
      (reader.amid 0 more).Passes (Wire.encodeCount number) between ∧
      (exactly number element).Wanting between := by
  have cut (short : reader.remaining < 8) := exists_count_of_short short
  rcases wanting.of_bind with (spent | ⟨fault, after, failed, truncated⟩) | ⟨number, between, read, back⟩
  · have short : reader.remaining < 8 := by
      rw [reader.remaining_eq, spent]
      decide
    obtain ⟨more, number, between, small, passes, ended⟩ := cut short
    exact ⟨more, number, between, small, passes, Or.inl ended⟩
  · cases careful.refused failed with
    | cut short =>
      obtain ⟨more, number, between, small, passes, ended⟩ := cut short
      exact ⟨more, number, between, small, passes, Or.inl ended⟩
    | negative passes negative => obtain ⟨_, _, ⟨⟩⟩ := truncated
    | crowded small passes crowded =>
      -- plain elements that do not fit are cut short themselves
      rename_i number
      refine ⟨[], number, after, small, ?_, Or.inr ?_⟩
      · rwa [Reader.amid_nothing]
      · cases answer : exactly number element after with
        | error other left => exact ⟨other, left, answer, plain.exactly number _ _ _ answer⟩
        | ok values left =>
          obtain ⟨rfl, -, filled⟩ := (exactly_eq_ok_iff inverts).mp answer
          have enough := length_mul_le_flatMap values fun value _ => least value
          have ahead := filled.remaining_eq
          rw [Nat.max_eq_left positive] at crowded
          omega
  · obtain ⟨small, passes⟩ := careful.sound read
    exact ⟨[], number, between, small, by rwa [Reader.amid_nothing], back⟩

/-- **A list can be completed**, also where the rule refuses it at its count. -/
theorem list_completable [Wire α] (careful : rule.Careful)
    (inverts : element.Inverts Wire.encode fits) (orderly : element.Orderly) (plain : element.Plain)
    (completable : element.Completable) (positive : 0 < minSize)
    (least : ∀ value : α, minSize ≤ (Wire.encode value).length) :
    (Wire.decodeList (rule minSize) element).Completable := by
  intro reader wanting
  obtain ⟨more, number, between, small, counted, back⟩ :=
    careful.exists_wanting inverts plain positive least wanting
  obtain ⟨rest, values, after, read, ended⟩ :=
    Completable.exactly orderly completable number between back
  obtain ⟨rfl, each, passes⟩ := (exactly_eq_ok_iff inverts).mp read
  have longer := counted.amid 0 rest
  rw [Reader.amid_amid] at longer
  refine ⟨more ++ rest, values, after, ?_, ended⟩
  exact (Inverts.list careful.toLawful inverts positive least).iff.mpr
    ⟨⟨small, each⟩, longer.trans passes⟩

end CountRule.Careful

end Utxo
