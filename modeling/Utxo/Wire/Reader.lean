/-
**A forward-only reader over untrusted bytes.**

* `Reader`: where it stands and what lies ahead. The number of bytes ahead is kept beside them, so
  that it is known without a walk.
* `Decoder α`: a computation on a reader that ends with a value or a `DecodeError`. A failure keeps
  the reader where the failing read left it.
* `Decoder.take`, and the reads built on it: integers, digests, fields behind a length byte.
* `Decoder.count`: a count of elements that are still to come, refused if they cannot fit into what
  lies ahead.
-/

import Utxo.Bytes.LittleEndian
import Utxo.Hash.Digest

namespace Utxo

/-- Why bytes are not the encoding of what was asked for. -/
inductive DecodeError
  | truncated (needed remaining : Nat)
  | negativeCount (count : Int64)
  | tooLarge (length limit : Nat)
  | unknownOpcode (opcode : UInt8)
  | operandLength (opcode : UInt8) (length : UInt8)
  | trailing (count : Nat)
deriving DecidableEq

/-- What a caller is told. -/
def DecodeError.message : DecodeError → String
  | .truncated needed remaining =>
    s!"Truncated input: needed {needed} bytes, {remaining} remaining"
  | .negativeCount count => s!"Negative element count: {count.toInt}"
  | .tooLarge length limit => s!"Input of {length} bytes exceeds decode limit of {limit}"
  | .unknownOpcode opcode => s!"Unknown opcode: 0x{Hex.encode [opcode]}"
  | .operandLength opcode length =>
    s!"Opcode 0x{Hex.encode [opcode]} cannot carry {length.toNat} data bytes"
  | .trailing count => s!"{count} trailing bytes after entity"

/-- A position in a byte string: how many bytes were read, and those still ahead. -/
structure Reader where
  position : Nat
  ahead : Bytes
  remaining : Nat
  remaining_eq : remaining = ahead.length

namespace Reader

/-- Two readers are equal when they stand at one position before the same bytes. -/
@[ext] theorem ext {first second : Reader} (position : first.position = second.position)
    (ahead : first.ahead = second.ahead) : first = second := by
  cases first
  cases second
  simp_all

/-- A reader that stands at `position` before the bytes `ahead`. -/
def startingAt (position : Nat) (ahead : Bytes) : Reader := ⟨position, ahead, ahead.length, rfl⟩

/-- A reader at the start of a byte string. -/
def ofBytes (bytes : Bytes) : Reader := startingAt 0 bytes

/-- Whether nothing lies ahead. -/
def isEmpty (reader : Reader) : Bool := reader.remaining == 0

/-- The reader behind the next `count` bytes. -/
def advance (reader : Reader) (count : Nat) : Reader where
  position := reader.position + count
  ahead := reader.ahead.drop count
  remaining := reader.remaining - count
  remaining_eq := by rw [reader.remaining_eq, List.length_drop]

end Reader

/-- A computation that reads from the front of what lies ahead. -/
abbrev Decoder := EStateM DecodeError Reader

namespace Decoder

/-- The largest length of a byte string that can be named. -/
def maxLength : Nat := UInt64.size - 1

/-- The next `needed` bytes. -/
def take (needed : Nat) : Decoder (FixedBytes needed) := fun reader =>
  if enough : needed ≤ reader.remaining then
    .ok ⟨reader.ahead.take needed,
      by rw [List.length_take, ← reader.remaining_eq]; omega⟩ (reader.advance needed)
  else .error (.truncated needed reader.remaining) reader

/-- An integer of one byte. -/
def uint8 : Decoder UInt8 := LittleEndian.toUInt8 <$> take 1

/-- A signed integer of four bytes. -/
def int32 : Decoder Int32 := LittleEndian.toInt32 <$> take 4

/-- An unsigned integer of four bytes. -/
def uint32 : Decoder UInt32 := LittleEndian.toUInt32 <$> take 4

/-- A signed integer of eight bytes. -/
def int64 : Decoder Int64 := LittleEndian.toInt64 <$> take 8

/-- A digest. -/
def hash : Decoder Hash := take 32

/-- A field behind a byte that tells its length. -/
def varBytes : Decoder VarBytes := do
  let length ← uint8
  let field ← take length.toNat
  return ⟨field.toBytes, field.length_le_maxVarBytes⟩

/-- A count of elements still to come, each of at least `minSize` bytes. An element of no bytes is
counted as one byte; the length that a count is said to need is its product with `minSize`, as far
as lengths can be named. -/
def count (minSize : Nat) : Decoder Nat := do
  let announced ← int64
  let remaining := (← get).remaining
  let elements := announced.toInt.toNat
  if announced < 0 then throw (.negativeCount announced)
  else if elements ≤ remaining / max minSize 1 then return elements
  else throw (.truncated (min (elements * minSize) maxLength) remaining)

/-- `number` elements, behind those of `done`, which is kept latest first. -/
def repeatOnto {α : Type} (element : Decoder α) : Nat → List α → Decoder (List α)
  | 0, done, reader => .ok done.reverse reader
  | number + 1, done, reader =>
    match element reader with
    | .ok value reader => repeatOnto element number (value :: done) reader
    | .error fault reader => .error fault reader

/-- `number` elements, one behind the other. -/
def exactly {α : Type} (number : Nat) (element : Decoder α) : Decoder (List α) :=
  repeatOnto element number []

/-! ### Successful reads -/

variable {α β : Type} {reader after : Reader}

theorem pure_eq_ok_iff {given value : α} :
    (pure given : Decoder α) reader = .ok value after ↔ given = value ∧ reader = after := by
  change EStateM.Result.ok given reader = _ ↔ _
  rw [EStateM.Result.ok.injEq]

/-- A sequence succeeds when its parts do, one behind the other. -/
theorem bind_eq_ok_iff {first : Decoder α} {next : α → Decoder β} {value : β} :
    (first >>= next) reader = .ok value after ↔
      ∃ result between, first reader = .ok result between ∧
        next result between = .ok value after := by
  change EStateM.bind first next reader = _ ↔ _
  unfold EStateM.bind
  cases first reader with
  | ok result between =>
    constructor
    · exact fun read => ⟨result, between, rfl, read⟩
    · rintro ⟨_, _, same, read⟩
      cases same
      exact read
  | error fault between => simp

theorem map_eq_ok_iff {first : Decoder α} {f : α → β} {value : β} :
    (f <$> first) reader = .ok value after ↔
      ∃ result, first reader = .ok result after ∧ f result = value := by
  change EStateM.map f first reader = _ ↔ _
  unfold EStateM.map
  cases first reader with
  | ok result between =>
    constructor
    · intro read
      cases read
      exact ⟨result, rfl, rfl⟩
    · rintro ⟨_, same, rfl⟩
      cases same
      rfl
  | error fault between => simp

/-- Taking bytes succeeds when there are enough, and takes them from the front. -/
theorem take_eq_ok_iff {needed : Nat} {value : FixedBytes needed} :
    take needed reader = .ok value after ↔
      needed ≤ reader.remaining ∧ value.toBytes = reader.ahead.take needed ∧
        after = reader.advance needed := by
  unfold take
  split
  next enough =>
    rw [EStateM.Result.ok.injEq, FixedBytes.ext_iff]
    constructor
    · rintro ⟨front, rfl⟩
      exact ⟨enough, front.symm, rfl⟩
    · rintro ⟨_, front, rfl⟩
      exact ⟨front.symm, rfl⟩
  next short => simp [short]

/-- What is taken no longer lies ahead. -/
theorem remaining_of_take {needed : Nat} {value : FixedBytes needed}
    (read : take needed reader = .ok value after) :
    after.remaining + needed = reader.remaining := by
  obtain ⟨enough, _, rfl⟩ := take_eq_ok_iff.mp read
  simp only [Reader.advance]
  omega

end Decoder

end Utxo
