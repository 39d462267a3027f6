/-
**Decoders that invert a byte form.**

A read moves a reader over the bytes that it takes: `Reader.Passes reader bytes after`. A decoder
*inverts* a byte form when it succeeds just where the form of a value lies ahead, and passes over it
(`Decoder.Inverts`). The law holds in both directions: nothing but forms is accepted, and every form
is, whatever lies behind it.

* `Decoder.Inverts.ofTake`: fixed-width fields; from it the integers, digests and length-prefixed
  fields of the wire format.
* `Decoder.exactly_eq_ok_iff`: a given number of elements, by induction on it.
* `Decoder.Inverts.list`: a list behind its count, for every rule that reads counts lawfully
  (`CountRule.Lawful`). The least size of an element is what keeps such a rule from refusing a count
  that was written.
-/

import Utxo.Ledger.Transaction
import Utxo.Proofs.Bytes.Integers

namespace Utxo

/-! ### The bytes between two standings of a reader -/

namespace Reader

/-- From `reader` over exactly `bytes` to `after`. -/
def Passes (reader : Reader) (bytes : Bytes) (after : Reader) : Prop :=
  reader.ahead = bytes ++ after.ahead ∧ after.position = reader.position + bytes.length

variable {reader between after : Reader} {front back bytes : Bytes}

theorem isEmpty_iff : reader.isEmpty = true ↔ reader.ahead = [] := by
  rw [isEmpty, beq_iff_eq, reader.remaining_eq, List.length_eq_zero_iff]

theorem Passes.trans (first : reader.Passes front between) (second : between.Passes back after) :
    reader.Passes (front ++ back) after := by
  obtain ⟨firstAhead, firstPosition⟩ := first
  obtain ⟨secondAhead, secondPosition⟩ := second
  refine ⟨?_, ?_⟩
  · rw [firstAhead, secondAhead, List.append_assoc]
  · rw [secondPosition, firstPosition, List.length_append, Nat.add_assoc]

@[simp] theorem passes_nil : reader.Passes [] after ↔ reader = after := by
  constructor
  · rintro ⟨ahead, position⟩
    exact Reader.ext position.symm ahead
  · rintro rfl
    exact ⟨rfl, rfl⟩

/-- What is passed in one go can be passed in two. -/
theorem passes_append :
    reader.Passes (front ++ back) after ↔
      ∃ between, reader.Passes front between ∧ between.Passes back after := by
  constructor
  · rintro ⟨ahead, position⟩
    refine ⟨startingAt (reader.position + front.length) (back ++ after.ahead), ⟨?_, rfl⟩, rfl, ?_⟩
    · rw [ahead, List.append_assoc]
      rfl
    · rw [position, List.length_append, ← Nat.add_assoc]
      rfl
  · rintro ⟨between, first, second⟩
    exact first.trans second

theorem Passes.remaining_eq (passes : reader.Passes bytes after) :
    reader.remaining = bytes.length + after.remaining := by
  rw [reader.remaining_eq, after.remaining_eq, passes.1, List.length_append]

/-- Where the bytes end does not change. -/
theorem Passes.position_add_remaining (passes : reader.Passes bytes after) :
    after.position + after.remaining = reader.position + reader.remaining := by
  rw [passes.2, passes.remaining_eq, Nat.add_assoc]

/-- Passing as many bytes as a reader advances is advancing it. -/
theorem passes_iff_advance (reader after : Reader) (bytes : Bytes) :
    reader.Passes bytes after ↔
      bytes.length ≤ reader.remaining ∧ bytes = reader.ahead.take bytes.length ∧
        after = reader.advance bytes.length := by
  constructor
  · intro passes
    have enough := passes.remaining_eq
    refine ⟨by omega, ?_, ?_⟩
    · rw [passes.1, List.take_left]
    · refine Reader.ext passes.2 ?_
      show after.ahead = reader.ahead.drop bytes.length
      rw [passes.1, List.drop_left]
  · rintro ⟨_, front, rfl⟩
    refine ⟨?_, rfl⟩
    show reader.ahead = bytes ++ reader.ahead.drop bytes.length
    exact (List.take_append_drop bytes.length reader.ahead).symm.trans (by rw [← front])

end Reader

/-! ### Decoders of single fields -/

namespace Decoder

variable {α β : Type}

/-- **The decoder succeeds just on forms.** It yields a value where the form of that value, which
has to fit, lies ahead, and it passes over this form. -/
def Inverts (decoder : Decoder α) (form : α → Bytes) (fits : α → Prop) : Prop :=
  ∀ (reader after : Reader) (value : α),
    decoder reader = .ok value after ↔ fits value ∧ reader.Passes (form value) after

variable {reader after : Reader}

theorem Inverts.iff {decoder : Decoder α} {form : α → Bytes} {fits : α → Prop}
    (inverts : decoder.Inverts form fits) {value : α} :
    decoder reader = .ok value after ↔ fits value ∧ reader.Passes (form value) after :=
  inverts reader after value

theorem take_eq_ok_iff_passes {needed : Nat} {value : FixedBytes needed} :
    take needed reader = .ok value after ↔ reader.Passes value.toBytes after := by
  rw [take_eq_ok_iff, Reader.passes_iff_advance, value.length_toBytes]

/-- Fixed-width bytes that stand one to one for values. -/
theorem Inverts.ofTake {width : Nat} {read : FixedBytes width → β} {write : β → FixedBytes width}
    (read_write : ∀ value, read (write value) = value)
    (write_read : ∀ bytes, write (read bytes) = bytes) :
    Inverts (read <$> take width) (fun value => (write value).toBytes) fun _ => True := by
  intro reader after value
  rw [map_eq_ok_iff, true_and]
  constructor
  · rintro ⟨bytes, taken, rfl⟩
    show reader.Passes (write (read bytes)).toBytes after
    rw [write_read]
    exact take_eq_ok_iff_passes.mp taken
  · intro passes
    exact ⟨write value, take_eq_ok_iff_passes.mpr passes, read_write value⟩

theorem uint8_inverts : uint8.Inverts (fun value => [value]) fun _ => True := by
  intro reader after value
  have single : (LittleEndian.fixed 1 value.toNat).toBytes = [value] := by
    simp [LittleEndian.fixed, LittleEndian.encode]
  show uint8 reader = .ok value after ↔ True ∧ reader.Passes [value] after
  rw [← single]
  exact Inverts.ofTake LittleEndian.toUInt8_fixed LittleEndian.fixed_toUInt8 reader after value

theorem int32_inverts : int32.Inverts LittleEndian.ofInt32 fun _ => True :=
  Inverts.ofTake LittleEndian.toInt32_fixed LittleEndian.fixed_toInt32

theorem uint32_inverts : uint32.Inverts LittleEndian.ofUInt32 fun _ => True :=
  Inverts.ofTake LittleEndian.toUInt32_fixed LittleEndian.fixed_toUInt32

theorem int64_inverts : int64.Inverts LittleEndian.ofInt64 fun _ => True :=
  Inverts.ofTake LittleEndian.toInt64_fixed LittleEndian.fixed_toInt64

theorem hash_inverts : hash.Inverts FixedBytes.toBytes fun _ => True := by
  intro reader after value
  rw [true_and]
  exact take_eq_ok_iff_passes

/-- A field stands behind its length, which one byte tells exactly. -/
theorem varBytes_inverts : varBytes.Inverts Wire.encodeVarBytes fun _ => True := by
  intro reader after value
  have split : Wire.encodeVarBytes value = [value.lengthByte] ++ value.toBytes := rfl
  simp only [varBytes, bind_eq_ok_iff, pure_eq_ok_iff, uint8_inverts.iff, take_eq_ok_iff_passes,
    true_and, split, Reader.passes_append]
  constructor
  · rintro ⟨length, between, first, field, last, second, rfl, rfl⟩
    have announced : VarBytes.lengthByte ⟨field.toBytes, field.length_le_maxVarBytes⟩ = length := by
      rw [VarBytes.lengthByte, VarBytes.length, field.length_toBytes, UInt8.ofNat_toNat]
    rw [announced]
    exact ⟨between, first, second⟩
  · rintro ⟨between, first, second⟩
    exact ⟨value.lengthByte, between, first, ⟨value.toBytes, value.toNat_lengthByte.symm⟩, after,
      second, rfl, rfl⟩

/-! ### Elements, one behind the other -/

section Elements

variable {element : Decoder α} {form : α → Bytes} {fits : α → Prop}

/-- What is read behind the elements of `done`. -/
theorem repeatOnto_eq_ok_iff (inverts : element.Inverts form fits) (number : Nat) :
    ∀ (done values : List α) (reader after : Reader),
      repeatOnto element number done reader = .ok values after ↔
        ∃ read : List α, values = done.reverse ++ read ∧ read.length = number ∧
          (∀ value ∈ read, fits value) ∧ reader.Passes (read.flatMap form) after := by
  induction number with
  | zero =>
    intro done values reader after
    rw [repeatOnto, EStateM.Result.ok.injEq]
    constructor
    · rintro ⟨rfl, rfl⟩
      exact ⟨[], by simp⟩
    · rintro ⟨read, rfl, empty, _, passes⟩
      rw [List.eq_nil_of_length_eq_zero empty] at passes ⊢
      exact ⟨(List.append_nil _).symm, Reader.passes_nil.mp passes⟩
  | succ number ih =>
    intro done values reader after
    rw [repeatOnto]
    constructor
    · intro repeated
      cases first : element reader with
      | error fault between =>
        rw [first] at repeated
        cases repeated
      | ok value between =>
        rw [first] at repeated
        obtain ⟨read, rfl, count, each, passes⟩ := (ih _ _ _ _).mp repeated
        obtain ⟨here, passed⟩ := inverts.iff.mp first
        refine ⟨value :: read, by simp, by simp [count], ?_, ?_⟩
        · rintro other (_ | ⟨_, member⟩)
          · exact here
          · exact each other member
        · rw [List.flatMap_cons]
          exact passed.trans passes
    · rintro ⟨read, rfl, count, each, passes⟩
      obtain ⟨value, rest, rfl⟩ := List.exists_cons_of_length_eq_add_one count
      rw [List.flatMap_cons, Reader.passes_append] at passes
      obtain ⟨between, passed, passes⟩ := passes
      rw [inverts.iff.mpr ⟨each value List.mem_cons_self, passed⟩]
      refine (ih _ _ _ _).mpr ⟨rest, by simp, by simpa using count, ?_, passes⟩
      exact fun other member => each other (List.mem_cons_of_mem _ member)

/-- A given number of elements. -/
theorem exactly_eq_ok_iff (inverts : element.Inverts form fits) {number : Nat} {values : List α} :
    exactly number element reader = .ok values after ↔
      values.length = number ∧ (∀ value ∈ values, fits value) ∧
        reader.Passes (values.flatMap form) after := by
  rw [exactly, repeatOnto_eq_ok_iff inverts]
  constructor
  · rintro ⟨read, rfl, read_eq⟩
    exact read_eq
  · intro values_eq
    exact ⟨values, rfl, values_eq⟩

end Elements

end Decoder

/-! ### Lists behind their count -/

/-- The first number that a count cannot tell. -/
def Wire.countBound : Nat := Nat.pow 2 63

/-- A rule that reads written counts and nothing else. It may refuse a count whose elements cannot
lie ahead, but none whose elements can, be each of them as small as it gets. -/
structure CountRule.Lawful (rule : CountRule) : Prop where
  sound : ∀ {minSize number : Nat} {reader after : Reader},
    rule minSize reader = .ok number after →
      number < Wire.countBound ∧ reader.Passes (Wire.encodeCount number) after
  complete : ∀ {minSize number : Nat} {reader after : Reader}, number < Wire.countBound →
    reader.Passes (Wire.encodeCount number) after → number * max minSize 1 ≤ after.remaining →
      rule minSize reader = .ok number after

namespace Decoder

variable {α : Type} {reader after : Reader}

/-- A count that is not negative has the bytes of the number that it is. -/
theorem ofInt64_of_nonneg {announced : Int64} (nonneg : ¬ announced < 0) :
    LittleEndian.ofInt64 announced = Wire.encodeCount announced.toInt.toNat := by
  rw [LittleEndian.ofInt64, Wire.encodeCount, LittleEndian.toNat_toUInt64_of_nonneg nonneg]

theorem get_eq_ok_iff {value : Reader} :
    (get : Decoder Reader) reader = .ok value after ↔ reader = value ∧ reader = after := by
  change EStateM.Result.ok reader reader = _ ↔ _
  rw [EStateM.Result.ok.injEq]

/-- What `count` makes of the integer that it read. -/
theorem count_eq_ok_iff_int64 {minSize number : Nat} :
    count minSize reader = .ok number after ↔
      ∃ announced, int64 reader = .ok announced after ∧ ¬ announced < 0 ∧
        announced.toInt.toNat ≤ after.remaining / max minSize 1 ∧
        announced.toInt.toNat = number := by
  rw [count, bind_eq_ok_iff]
  constructor
  · rintro ⟨announced, between, read, judged⟩
    obtain ⟨_, _, same, judged⟩ := bind_eq_ok_iff.mp judged
    obtain ⟨rfl, rfl⟩ := get_eq_ok_iff.mp same
    split at judged
    · cases judged
    next nonneg =>
      split at judged
      next room =>
        obtain ⟨same, rfl⟩ := pure_eq_ok_iff.mp judged
        exact ⟨announced, read, nonneg, room, same⟩
      next => cases judged
  · rintro ⟨announced, read, nonneg, room, same⟩
    refine ⟨announced, after, read, bind_eq_ok_iff.mpr ⟨after, after, rfl, ?_⟩⟩
    rw [if_neg nonneg, if_pos room]
    exact pure_eq_ok_iff.mpr ⟨same, rfl⟩

/-- **A count is read where it was written and its elements can lie behind it.** -/
theorem count_eq_ok_iff {minSize number : Nat} :
    count minSize reader = .ok number after ↔
      number < Wire.countBound ∧ reader.Passes (Wire.encodeCount number) after ∧
        number * max minSize 1 ≤ after.remaining := by
  have least : 0 < max minSize 1 := by omega
  rw [count_eq_ok_iff_int64]
  constructor
  · rintro ⟨announced, read, nonneg, room, rfl⟩
    have passes := (int64_inverts.iff.mp read).2
    rw [ofInt64_of_nonneg nonneg] at passes
    exact ⟨LittleEndian.toInt_toNat_lt announced, passes, (Nat.le_div_iff_mul_le least).mp room⟩
  · rintro ⟨small, passes, room⟩
    obtain ⟨nonneg, same⟩ := LittleEndian.toInt_ofNat_toNat small
    refine ⟨Int64.ofNat number, int64_inverts.iff.mpr ⟨trivial, ?_⟩, nonneg, ?_, same⟩
    · rw [ofInt64_of_nonneg nonneg, same]
      exact passes
    · rw [same]
      exact (Nat.le_div_iff_mul_le least).mpr room

theorem count_lawful : CountRule.Lawful count where
  sound read := ⟨(count_eq_ok_iff.mp read).1, (count_eq_ok_iff.mp read).2.1⟩
  complete small passes room := count_eq_ok_iff.mpr ⟨small, passes, room⟩

/-- Elements of a least size fill that size many times over. -/
theorem length_mul_le_flatMap {form : α → Bytes} {least : Nat} (values : List α)
    (each : ∀ value ∈ values, least ≤ (form value).length) :
    values.length * least ≤ (values.flatMap form).length := by
  induction values with
  | nil => simp
  | cons value rest ih =>
    have head := each value List.mem_cons_self
    have tail := ih fun other member => each other (List.mem_cons_of_mem _ member)
    rw [List.length_cons, List.flatMap_cons, List.length_append, Nat.succ_mul]
    omega

/-- **A list behind its count.** No element may be smaller than the rule is told: then there is room
behind every count that was written. -/
theorem Inverts.list [Wire α] {rule : CountRule} (lawful : rule.Lawful) {element : Decoder α}
    {fits : α → Prop} (inverts : element.Inverts Wire.encode fits) {minSize : Nat}
    (positive : 0 < minSize) (least : ∀ value : α, minSize ≤ (Wire.encode value).length) :
    (Wire.decodeList (rule minSize) element).Inverts Wire.encodeList
      fun values => values.length < Wire.countBound ∧ ∀ value ∈ values, fits value := by
  intro reader after values
  rw [Wire.decodeList, bind_eq_ok_iff, Wire.encodeList, Reader.passes_append]
  constructor
  · rintro ⟨number, between, counted, read⟩
    obtain ⟨small, passed⟩ := lawful.sound counted
    obtain ⟨rfl, each, passes⟩ := (exactly_eq_ok_iff inverts).mp read
    exact ⟨⟨small, each⟩, between, passed, passes⟩
  · rintro ⟨⟨small, each⟩, between, passed, passes⟩
    have filled := length_mul_le_flatMap values fun value _ => least value
    have behind := passes.remaining_eq
    have room : values.length * max minSize 1 ≤ between.remaining := by
      rw [Nat.max_eq_left positive]
      omega
    refine ⟨values.length, between, lawful.complete small passed room, ?_⟩
    exact (exactly_eq_ok_iff inverts).mpr ⟨rfl, each, passes⟩

end Decoder

end Utxo
