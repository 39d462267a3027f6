/-
**Which fields a decoder reads, in what order, and where it stops.**

* `Wire.Field`: the reads that all others are built from; `Field.Fails`: how each of them fails, and where
  it leaves the reader. `Field.eq_error_iff`: it fails in no other way.
* `Wire.Layout`: the fields of a byte form in order, lists behind their counts. `Layout.Whole`: the fields
  of a value; `Layout.Begins`: the first of these, and the field that is next.
* `Layout.Follows`: a decoder that reads these fields and nothing else. A read that fails has passed the
  fields before the failing one, and leaves the reader where that one does.
* `Layout.Follows.bind`, `exactly`, `list`: from the fields to the decoders built on them.
-/

import Utxo.Proofs.Wire.Surroundings

namespace Utxo.Wire

open Decoder

/-! ### Fields -/

/-- **The reads that all others are built from.** -/
inductive Field
  | take (needed : Nat)
  | uint8
  | int32
  | uint32
  | int64
  | hash
  | varBytes
  | count (minSize : Nat)

namespace Field

/-- What the read of a field gives. -/
def Answer : Field → Type
  | take needed => FixedBytes needed
  | uint8 => UInt8
  | int32 => Int32
  | uint32 => UInt32
  | int64 => Int64
  | hash => Hash
  | varBytes => VarBytes
  | count _ => Nat

def decoder : (field : Field) → Decoder field.Answer
  | take needed => Decoder.take needed
  | uint8 => Decoder.uint8
  | int32 => Decoder.int32
  | uint32 => Decoder.uint32
  | int64 => Decoder.int64
  | hash => Decoder.hash
  | varBytes => Decoder.varBytes
  | count minSize => Decoder.count minSize

/-- The bytes of what a field holds. -/
def form : (field : Field) → field.Answer → Bytes
  | take _ => FixedBytes.toBytes
  | uint8 => fun value => [value]
  | int32 => LittleEndian.ofInt32
  | uint32 => LittleEndian.ofUInt32
  | int64 => LittleEndian.ofInt64
  | hash => FixedBytes.toBytes
  | varBytes => encodeVarBytes
  | count _ => encodeCount

/-- The width of the fields that have one and hold any bytes of it. -/
def width? : Field → Option Nat
  | take needed => some needed
  | uint8 => some 1
  | int32 => some 4
  | uint32 => some 4
  | int64 => some 8
  | hash => some 32
  | varBytes => none
  | count _ => none

variable {field : Field} {reader after : Reader} {fault : DecodeError}

/-- A field that was read is what was passed. -/
theorem passes_of_ok {answer : field.Answer} (read : field.decoder reader = .ok answer after) :
    reader.Passes (field.form answer) after := by
  cases field with
  | take needed => exact take_eq_ok_iff_passes.mp read
  | uint8 => exact (uint8_inverts.iff.mp read).2
  | int32 => exact (int32_inverts.iff.mp read).2
  | uint32 => exact (uint32_inverts.iff.mp read).2
  | int64 => exact (int64_inverts.iff.mp read).2
  | hash => exact (hash_inverts.iff.mp read).2
  | varBytes => exact (varBytes_inverts.iff.mp read).2
  | count minSize => exact (count_eq_ok_iff.mp read).2.1

/-- **How a field fails**, and where the reader stands then. A field of fixed width moves nothing; one
behind its length may have passed this length, and a count itself. -/
inductive Fails : Field → Reader → DecodeError → Reader → Prop
  | short {field : Field} {width : Nat} {reader : Reader} (fixed : field.width? = some width)
      (short : reader.remaining < width) :
      Fails field reader (.truncated width reader.remaining) reader
  | noLength {reader : Reader} (nothing : reader.remaining = 0) :
      Fails varBytes reader (.truncated 1 0) reader
  | cut {length : UInt8} {reader after : Reader} (read : reader.Passes [length] after)
      (short : after.remaining < length.toNat) :
      Fails varBytes reader (.truncated length.toNat after.remaining) after
  | count {minSize : Nat} {reader after : Reader} {fault : DecodeError}
      (refused : CountRefused minSize reader fault after) : Fails (count minSize) reader fault after

theorem varBytes_eq_error_iff :
    Decoder.varBytes reader = .error fault after ↔ Fails varBytes reader fault after := by
  constructor
  · intro failed
    rcases bind_eq_error_iff.mp failed with front | ⟨length, between, read, back⟩
    · obtain ⟨short, rfl, rfl⟩ := take_eq_error_iff.mp (map_eq_error_iff.mp front)
      have nothing : after.remaining = 0 := Nat.lt_one_iff.mp short
      rw [nothing]
      exact .noLength nothing
    · rcases bind_eq_error_iff.mp back with field | ⟨value, last, -, none⟩
      · obtain ⟨short, rfl, rfl⟩ := take_eq_error_iff.mp field
        exact .cut (uint8_inverts.iff.mp read).2 short
      · exact absurd none (pure_ne_error _)
  · intro fails
    refine bind_eq_error_iff.mpr ?_
    cases fails with
    | short fixed short => cases fixed
    | noLength nothing =>
      refine Or.inl (map_eq_error_iff.mpr (take_eq_error_iff.mpr ⟨?_, ?_, rfl⟩))
      · rw [nothing]
        exact Nat.zero_lt_one
      · rw [nothing]
    | cut read short =>
      refine Or.inr ⟨_, _, uint8_inverts.iff.mpr ⟨trivial, read⟩, bind_eq_error_iff.mpr (Or.inl ?_)⟩
      exact take_eq_error_iff.mpr ⟨short, rfl, rfl⟩

/-- A field of fixed width fails for want of bytes. -/
theorem fixed_eq_error_iff {width : Nat} (fixed : field.width? = some width) :
    field.decoder reader = .error fault after ↔
      reader.remaining < width ∧ fault = .truncated width reader.remaining ∧ after = reader := by
  cases field with
  | varBytes => cases fixed
  | count minSize => cases fixed
  | take needed =>
    cases fixed
    exact take_eq_error_iff
  | hash =>
    cases fixed
    exact take_eq_error_iff
  | _ =>
    cases fixed
    exact map_eq_error_iff.trans take_eq_error_iff

/-- **A field fails in no other way.** -/
theorem eq_error_iff : field.decoder reader = .error fault after ↔ Fails field reader fault after := by
  have ofWidth {width : Nat} (fixed : field.width? = some width) :
      field.decoder reader = .error fault after ↔ Fails field reader fault after := by
    rw [fixed_eq_error_iff fixed]
    constructor
    · rintro ⟨short, rfl, rfl⟩
      exact .short fixed short
    · intro fails
      cases fails with
      | short again short =>
        cases fixed.symm.trans again
        exact ⟨short, rfl, rfl⟩
      | noLength => cases fixed
      | cut => cases fixed
      | count => cases fixed
  cases field with
  | varBytes => exact varBytes_eq_error_iff
  | count minSize =>
    refine count_eq_error_iff.trans ⟨.count, fun fails => ?_⟩
    cases fails with
    | short fixed => cases fixed
    | count refused => exact refused
  | _ => exact ofWidth rfl

/-- **How many bytes a failing field may have passed.** -/
def Spends : Field → Nat → Prop
  | varBytes, spent => spent = 0 ∨ spent = 1
  | count _, spent => spent = 0 ∨ spent = 8
  | _, spent => spent = 0

theorem spends_zero (field : Field) : field.Spends 0 := by
  cases field with
  | varBytes => exact Or.inl rfl
  | count minSize => exact Or.inl rfl
  | _ => rfl

theorem Fails.exists_passes (fails : Fails field reader fault after) :
    ∃ spent, reader.Passes spent after ∧ field.Spends spent.length := by
  cases fails with
  | short => exact ⟨[], Reader.passes_nil.mpr rfl, field.spends_zero⟩
  | noLength => exact ⟨[], Reader.passes_nil.mpr rfl, Or.inl rfl⟩
  | cut read => exact ⟨_, read, Or.inr rfl⟩
  | count refused =>
    cases refused with
    | cut => exact ⟨[], Reader.passes_nil.mpr rfl, Or.inl rfl⟩
    | negative read => exact ⟨_, read, Or.inr (LittleEndian.length_ofInt64 _)⟩
    | crowded small read => exact ⟨_, read, Or.inr (LittleEndian.length_encode ..)⟩

/-- What is said to remain is what lies ahead of the reader that the failure leaves. -/
theorem Fails.remaining_eq {needed remaining : Nat}
    (fails : Fails field reader (.truncated needed remaining) after) : remaining = after.remaining := by
  cases fails with
  | short => rfl
  | noLength nothing => exact nothing.symm
  | cut => rfl
  | count refused =>
    cases refused with
    | cut => rfl
    | crowded => rfl

end Field

/-- A field with what it holds. -/
structure Datum where
  field : Field
  value : field.Answer

def Datum.bytes (datum : Datum) : Bytes := datum.field.form datum.value

/-! ### Layouts -/

/-- **The fields of a byte form in order**: none, one, those of one part behind those of another, or a count
and so many elements. -/
inductive Layout
  | nothing
  | field (field : Field)
  | both (first second : Layout)
  | list (minSize : Nat) (element : Layout)

namespace Layout

/-- One part behind the other. -/
def inOrder (parts : List Layout) : Layout := parts.foldr both nothing

/-- **These are the fields of a value, and what they hold.** -/
inductive Whole : Layout → List Datum → Prop
  | nothing : Whole nothing []
  | field (datum : Datum) : Whole (field datum.field) [datum]
  | both {first second : Layout} {front back : List Datum} (head : Whole first front)
      (tail : Whole second back) : Whole (both first second) (front ++ back)
  | list {minSize number : Nat} {element : Layout} {data : List Datum}
      (elements : Whole (inOrder (List.replicate number element)) data) :
      Whole (list minSize element) (⟨.count minSize, number⟩ :: data)

/-- **These are the first fields of a value, and this one is next.** -/
inductive Begins : Layout → List Datum → Field → Prop
  | field {field : Field} : Begins (.field field) [] field
  | first {first second : Layout} {front : List Datum} {next : Field}
      (head : Begins first front next) : Begins (both first second) front next
  | second {first second : Layout} {front back : List Datum} {next : Field}
      (head : Whole first front) (tail : Begins second back next) :
      Begins (both first second) (front ++ back) next
  | count {minSize : Nat} {element : Layout} : Begins (list minSize element) [] (.count minSize)
  | elements {minSize number : Nat} {element : Layout} {data : List Datum} {next : Field}
      (elements : Begins (inOrder (List.replicate number element)) data next) :
      Begins (list minSize element) (⟨.count minSize, number⟩ :: data) next

/-- **The decoder reads these fields and nothing else.** What it reads are the fields of a value; where it
fails, the fields before the failing one were read, and that one fails. -/
structure Follows {α : Type} (decoder : Decoder α) (layout : Layout) : Prop where
  read : ∀ {reader after : Reader} {value : α}, decoder reader = .ok value after →
    ∃ data, layout.Whole data ∧ reader.Passes (data.flatMap Datum.bytes) after
  failed : ∀ {reader after : Reader} {fault : DecodeError}, decoder reader = .error fault after →
    ∃ data next between, layout.Begins data next ∧
      reader.Passes (data.flatMap Datum.bytes) between ∧ next.Fails between fault after

namespace Follows

variable {α β : Type} {first second element : Layout}

protected theorem pure (value : α) : Follows (pure value) nothing where
  read read := ⟨[], .nothing, Reader.passes_nil.mpr (pure_eq_ok_iff.mp read).2⟩
  failed failed := absurd failed (pure_ne_error _)

protected theorem field (field : Field) : Follows field.decoder (.field field) where
  read {_ _ value} read := by
    refine ⟨[⟨field, value⟩], .field ⟨field, value⟩, ?_⟩
    rw [List.flatMap_singleton]
    exact Field.passes_of_ok read
  failed failed := ⟨[], field, _, .field, Reader.passes_nil.mpr rfl, Field.eq_error_iff.mp failed⟩

/-- Behind the fields of the first part come those of the second. -/
protected theorem bind {decoder : Decoder α} {next : α → Decoder β} (head : Follows decoder first)
    (tail : ∀ value, Follows (next value) second) : Follows (decoder >>= next) (both first second) where
  read read := by
    obtain ⟨value, between, front, back⟩ := bind_eq_ok_iff.mp read
    obtain ⟨data, whole, passes⟩ := head.read front
    obtain ⟨others, rest, passed⟩ := (tail value).read back
    refine ⟨data ++ others, .both whole rest, ?_⟩
    rw [List.flatMap_append]
    exact passes.trans passed
  failed failed := by
    rcases bind_eq_error_iff.mp failed with front | ⟨value, between, front, back⟩
    · obtain ⟨data, field, between, begins, passes, fails⟩ := head.failed front
      exact ⟨data, field, between, .first begins, passes, fails⟩
    · obtain ⟨data, whole, passes⟩ := head.read front
      obtain ⟨others, field, last, begins, passed, fails⟩ := (tail value).failed back
      refine ⟨data ++ others, field, last, .second whole begins, ?_, fails⟩
      rw [List.flatMap_append]
      exact passes.trans passed

/-- So many elements, by induction on their number. -/
protected theorem exactly {decoder : Decoder α} (follows : Follows decoder element) (number : Nat) :
    Follows (exactly number decoder) (inOrder (List.replicate number element)) := by
  -- the elements that are kept aside take no part in what is read
  have onto : ∀ done : List α,
      Follows (repeatOnto decoder number done) (inOrder (List.replicate number element)) := by
    induction number with
    | zero => exact fun done => .pure done.reverse
    | succ number ih =>
      intro done
      rw [repeatOnto_succ, List.replicate_succ]
      exact follows.bind fun value => ih (value :: done)
  exact onto []

/-- A list behind its count. -/
protected theorem list {decoder : Decoder α} (follows : Follows decoder element) (minSize : Nat) :
    Follows (decodeList (count minSize) decoder) (list minSize element) where
  read read := by
    obtain ⟨number, between, counted, rest⟩ := bind_eq_ok_iff.mp read
    obtain ⟨data, whole, passed⟩ := (follows.exactly number).read rest
    have passes := (count_eq_ok_iff.mp counted).2.1
    exact ⟨⟨.count minSize, number⟩ :: data, .list whole, passes.trans passed⟩
  failed failed := by
    rcases bind_eq_error_iff.mp failed with refused | ⟨number, between, counted, rest⟩
    · exact ⟨[], _, _, .count, Reader.passes_nil.mpr rfl, .count (count_eq_error_iff.mp refused)⟩
    · obtain ⟨data, field, last, begins, passed, fails⟩ := (follows.exactly number).failed rest
      have passes := (count_eq_ok_iff.mp counted).2.1
      exact ⟨⟨.count minSize, number⟩ :: data, field, last, .elements begins, passes.trans passed,
        fails⟩

end Follows

end Layout

end Utxo.Wire
