/-
**A reader is safe and honest, whatever is read with it and however often it fails.**

* `Entity`: the types that are read from a reader; `Entity.layout`: their fields in order, and
  `Entity.decoder_follows`: their decoders read these.
* `Call`: one read, `Call.perform`: the step that it takes; `Call.steps`: a run of reads, each from where
  the one before left the reader, also if that one failed.
* `Step.Honest`: all that a caller can rely on; `Call.perform_honest`: one step is honest,
  `Call.steps_honest`: so is every step of a run, by induction on it.
-/

import Utxo.Proofs.Ledger.Forms
import Utxo.Proofs.Wire.Layout

namespace Utxo

open Decoder Wire

/-! ### The types that are read -/

/-- The types with a byte form. -/
inductive Entity
  | input
  | output
  | transaction
  | header
  | block
deriving DecidableEq

namespace Entity

def Value : Entity → Type
  | input => TxInput
  | output => TxOutput
  | transaction => Transaction
  | header => BlockHeader
  | block => Block

def decoder : (entity : Entity) → Decoder entity.Value
  | input => TxInput.decoder
  | output => TxOutput.decoder
  | transaction => Transaction.decoder
  | header => BlockHeader.decoder
  | block => Block.decoder

def encode : (entity : Entity) → entity.Value → Bytes
  | input => TxInput.encode
  | output => TxOutput.encode
  | transaction => Transaction.encode
  | header => BlockHeader.encode
  | block => Block.encode

/-- The fields in order. -/
def inputLayout : Layout :=
  .inOrder [.field .hash, .field .uint32, .field .varBytes, .field .uint32]

def outputLayout : Layout := .inOrder [.field .int32, .field .varBytes]

def transactionLayout : Layout :=
  .inOrder [.field .int32, .list 41 inputLayout, .list 5 outputLayout, .field .int32]

def headerLayout : Layout :=
  .inOrder [.field .int32, .field .hash, .field .hash, .field .int64, .field .int32, .field .int32]

def blockLayout : Layout :=
  .inOrder [.field .int32, headerLayout, .list 24 transactionLayout]

def layout : Entity → Layout
  | input => inputLayout
  | output => outputLayout
  | transaction => transactionLayout
  | header => headerLayout
  | block => blockLayout

theorem input_follows : Layout.Follows TxInput.decoder inputLayout :=
  (Layout.Follows.field .hash).bind fun _ => (Layout.Follows.field .uint32).bind fun _ =>
    (Layout.Follows.field .varBytes).bind fun _ => (Layout.Follows.field .uint32).bind fun _ => .pure _

theorem output_follows : Layout.Follows TxOutput.decoder outputLayout :=
  (Layout.Follows.field .int32).bind fun _ => (Layout.Follows.field .varBytes).bind fun _ => .pure _

theorem transaction_follows : Layout.Follows Transaction.decoder transactionLayout :=
  (Layout.Follows.field .int32).bind fun _ => (input_follows.list TxInput.minSize).bind fun _ =>
    (output_follows.list TxOutput.minSize).bind fun _ => (Layout.Follows.field .int32).bind fun _ =>
      .pure _

theorem header_follows : Layout.Follows BlockHeader.decoder headerLayout :=
  (Layout.Follows.field .int32).bind fun _ => (Layout.Follows.field .hash).bind fun _ =>
    (Layout.Follows.field .hash).bind fun _ => (Layout.Follows.field .int64).bind fun _ =>
      (Layout.Follows.field .int32).bind fun _ => (Layout.Follows.field .int32).bind fun _ => .pure _

theorem block_follows : Layout.Follows Block.decoder blockLayout :=
  (Layout.Follows.field .int32).bind fun _ => header_follows.bind fun _ =>
    (transaction_follows.list Transaction.minSize).bind fun _ => .pure _

/-- **An entity is read field by field.** -/
theorem decoder_follows (entity : Entity) : Layout.Follows entity.decoder entity.layout := by
  cases entity with
  | input => exact input_follows
  | output => exact output_follows
  | transaction => exact transaction_follows
  | header => exact header_follows
  | block => exact block_follows

/-- An entity that was read is what was passed. -/
theorem passes_of_ok {entity : Entity} {reader after : Reader} {value : entity.Value}
    (read : entity.decoder reader = .ok value after) : reader.Passes (entity.encode value) after := by
  cases entity with
  | input => exact (TxInput.decoder_inverts.iff.mp read).2
  | output => exact (TxOutput.decoder_inverts.iff.mp read).2
  | transaction => exact (Transaction.decoder_inverts.iff.mp read).2
  | header => exact (BlockHeader.decoder_inverts.iff.mp read).2
  | block => exact (Block.decoder_inverts.iff.mp read).2

end Entity

/-! ### Reads and their steps -/

/-- **One read**: of a field, or of an entity. -/
inductive Call
  | read (field : Field)
  | decode (entity : Entity)

namespace Call

def Answer : Call → Type
  | read field => field.Answer
  | decode entity => entity.Value

def decoder : (call : Call) → Decoder call.Answer
  | read field => field.decoder
  | decode entity => entity.decoder

/-- The bytes of what was read. -/
def form : (call : Call) → call.Answer → Bytes
  | read field => field.form
  | decode entity => entity.encode

end Call

/-- A read that was performed: where the reader stood before, what was answered, and where it stands. -/
structure Step where
  before : Reader
  call : Call
  answer : Except DecodeError call.Answer
  after : Reader

namespace Call

/-- The step that a read takes. -/
def perform (call : Call) (reader : Reader) : Step :=
  match call.decoder reader with
  | .ok value after => ⟨reader, call, .ok value, after⟩
  | .error fault after => ⟨reader, call, .error fault, after⟩

/-- One read after the other, whether they fail or not. -/
def steps : List Call → Reader → List Step
  | [], _ => []
  | call :: rest, reader => call.perform reader :: steps rest (call.perform reader).after

end Call

/-! ### What a caller can rely on -/

/-- The reader stands within the byte string. -/
def Reader.StandsIn (reader : Reader) (bytes : Bytes) : Prop :=
  reader = within bytes reader.position ∧ reader.position ≤ bytes.length

theorem Reader.StandsIn.total {reader : Reader} {bytes : Bytes} (stands : reader.StandsIn bytes) :
    reader.position + reader.remaining = bytes.length := by
  have ahead : reader.ahead = bytes.drop reader.position := congrArg Reader.ahead stands.1
  rw [reader.remaining_eq, ahead, List.length_drop]
  exact Nat.add_sub_cancel' stands.2

/-- Passing bytes stays within the byte string, and they are those between the two positions. -/
theorem Reader.StandsIn.passes {reader after : Reader} {bytes passed : Bytes}
    (stands : reader.StandsIn bytes) (passes : reader.Passes passed after) :
    after.StandsIn bytes ∧ bytes.extract reader.position after.position = passed := by
  have total := passes.position_add_remaining
  rw [stands.total] at total
  rw [stands.1] at passes
  obtain ⟨same, -, taken⟩ := passes.within
  exact ⟨⟨same, by omega⟩, taken⟩

/-- **All that a caller can rely on**, of a reader over `bytes`. -/
structure Step.Honest (bytes : Bytes) (step : Step) : Prop where
  before : step.before.StandsIn bytes
  after : step.after.StandsIn bytes
  /-- No byte is put back. -/
  monotone : step.before.position ≤ step.after.position
  bounded : step.after.position ≤ bytes.length
  total : step.after.position + step.after.remaining = bytes.length
  /-- What was read is what stands between the two positions. -/
  value : ∀ {value}, step.answer = .ok value →
    bytes.extract step.before.position step.after.position = step.call.form value
  /-- A field that fails spends nothing, or its length, or its count. -/
  field : ∀ {field fault}, step.call = .read field → step.answer = .error fault →
    ∃ spent, field.Spends spent ∧ step.after.position = step.before.position + spent
  /-- An entity that fails spends the fields that were read in full, and what the failing field does. -/
  entity : ∀ {entity fault}, step.call = .decode entity → step.answer = .error fault →
    ∃ data next between spent, entity.layout.Begins data next ∧
      bytes.extract step.before.position between = data.flatMap Datum.bytes ∧
      between = step.before.position + (data.flatMap Datum.bytes).length ∧
      next.decoder (Reader.within bytes between) = .error fault step.after ∧
      next.Spends spent ∧ step.after.position = between + spent
  /-- What is said to remain does remain. -/
  truthful : ∀ {needed remaining}, step.answer = .error (.truncated needed remaining) →
    remaining = step.after.remaining

namespace Call

variable {call : Call} {reader after : Reader} {fault : DecodeError} {bytes : Bytes}

theorem perform_of_ok {value : call.Answer} (read : call.decoder reader = .ok value after) :
    call.perform reader = ⟨reader, call, .ok value, after⟩ := by
  rw [perform, read]

theorem perform_of_error (failed : call.decoder reader = .error fault after) :
    call.perform reader = ⟨reader, call, .error fault, after⟩ := by
  rw [perform, failed]

theorem passes_of_ok {value : call.Answer} (read : call.decoder reader = .ok value after) :
    reader.Passes (call.form value) after := by
  cases call with
  | read field => exact Field.passes_of_ok read
  | decode entity => exact Entity.passes_of_ok read

/-- The layout of a read: its field alone, or those of its entity. -/
def layout : Call → Layout
  | read field => .field field
  | decode entity => entity.layout

theorem decoder_follows (call : Call) : Layout.Follows call.decoder call.layout := by
  cases call with
  | read field => exact .field field
  | decode entity => exact entity.decoder_follows

/-- A read that succeeds is honest. -/
theorem honest_of_ok {value : call.Answer} (stands : reader.StandsIn bytes)
    (read : call.decoder reader = .ok value after) :
    Step.Honest bytes ⟨reader, call, .ok value, after⟩ := by
  have passes := passes_of_ok read
  obtain ⟨inside, taken⟩ := stands.passes passes
  refine ⟨stands, inside, ?_, inside.2, inside.total, ?_, ?_, ?_, ?_⟩
  · show reader.position ≤ after.position
    rw [passes.2]
    exact Nat.le_add_right ..
  · rintro other ⟨⟩
    exact taken
  · rintro _ _ _ ⟨⟩
  · rintro _ _ _ ⟨⟩
  · rintro _ _ ⟨⟩

/-- A read that fails is honest. -/
theorem honest_of_error (stands : reader.StandsIn bytes)
    (failed : call.decoder reader = .error fault after) :
    Step.Honest bytes ⟨reader, call, .error fault, after⟩ := by
  obtain ⟨data, next, between, begins, passes, fails⟩ := call.decoder_follows.failed failed
  obtain ⟨spent, passed, spends⟩ := fails.exists_passes
  -- the reader stands within the bytes where the failing field begins, and where it leaves it
  obtain ⟨atField, taken⟩ := stands.passes passes
  obtain ⟨inside, -⟩ := atField.passes passed
  refine ⟨stands, inside, ?_, inside.2, inside.total, ?_, ?_, ?_, ?_⟩
  · show reader.position ≤ after.position
    rw [passed.2, passes.2, Nat.add_assoc]
    exact Nat.le_add_right ..
  · rintro _ ⟨⟩
  · rintro field _ rfl ⟨⟩
    cases begins with
    | field =>
      obtain rfl := Reader.passes_nil.mp passes
      exact ⟨_, spends, passed.2⟩
  · rintro entity _ rfl ⟨⟩
    refine ⟨data, next, between.position, spent.length, begins, taken, passes.2, ?_, spends, passed.2⟩
    rw [← atField.1]
    exact Field.eq_error_iff.mpr fails
  · rintro needed remaining ⟨⟩
    exact fails.remaining_eq

/-- **A read is honest, wherever the reader stands.** -/
theorem perform_honest (call : Call) (stands : reader.StandsIn bytes) :
    (call.perform reader).Honest bytes := by
  cases answer : call.decoder reader with
  | ok value after =>
    rw [perform_of_ok answer]
    exact honest_of_ok stands answer
  | error fault after =>
    rw [perform_of_error answer]
    exact honest_of_error stands answer

theorem before_perform (call : Call) (reader : Reader) : (call.perform reader).before = reader := by
  cases answer : call.decoder reader with
  | ok value after => rw [perform_of_ok answer]
  | error fault after => rw [perform_of_error answer]

theorem call_perform (call : Call) (reader : Reader) : (call.perform reader).call = call := by
  cases answer : call.decoder reader with
  | ok value after => rw [perform_of_ok answer]
  | error fault after => rw [perform_of_error answer]

/-- Every step of a run is honest, and starts no earlier than the run. -/
theorem honest_of_mem_steps (calls : List Call) {step : Step} (stands : reader.StandsIn bytes)
    (member : step ∈ steps calls reader) :
    step.Honest bytes ∧ reader.position ≤ step.before.position := by
  induction calls generalizing reader with
  | nil => cases member
  | cons call rest ih =>
    have here := call.perform_honest stands
    have start := congrArg Reader.position (call.before_perform reader)
    rcases List.mem_cons.mp member with rfl | later
    · exact ⟨here, Nat.le_of_eq start.symm⟩
    · obtain ⟨honest, behind⟩ := ih here.after later
      exact ⟨honest, Nat.le_trans (start ▸ here.monotone) behind⟩

/-- No step of a run starts before an earlier one ended. -/
theorem pairwise_steps (calls : List Call) (stands : reader.StandsIn bytes) :
    (steps calls reader).Pairwise fun earlier later =>
      earlier.after.position ≤ later.before.position := by
  induction calls generalizing reader with
  | nil => exact .nil
  | cons call rest ih =>
    have inside := (call.perform_honest stands).after
    exact .cons (fun later member => (honest_of_mem_steps rest inside member).2) (ih inside)

theorem map_call_steps (calls : List Call) (reader : Reader) :
    (steps calls reader).map Step.call = calls := by
  induction calls generalizing reader with
  | nil => rfl
  | cons call rest ih => rw [steps, List.map_cons, call_perform, ih]

/-- **A reader is safe and honest, whatever is read with it and however often it fails.** Of every byte
string and every sequence of reads, each step is honest, and no step starts before an earlier one ended. -/
theorem steps_honest (bytes : Bytes) (calls : List Call) :
    (steps calls (Reader.ofBytes bytes)).map Step.call = calls ∧
    (∀ step ∈ steps calls (Reader.ofBytes bytes), step.Honest bytes) ∧
    (steps calls (Reader.ofBytes bytes)).Pairwise fun earlier later =>
      earlier.after.position ≤ later.before.position := by
  have start : (Reader.ofBytes bytes).StandsIn bytes := ⟨rfl, Nat.zero_le _⟩
  exact ⟨map_call_steps calls _, fun step member => (honest_of_mem_steps calls start member).1,
    pairwise_steps calls start⟩

/-- An output that is cut inside its script fails behind the script's length, a digest behind that fails
and moves nothing, and a field behind its length is read from there. -/
theorem steps_honest_cutOutput :
    (steps [.decode .output, .read .hash, .read .varBytes]
        (Reader.ofBytes [1, 0, 0, 0, 9, 1, 7])).map
          (fun step => (step.before.position, step.after.position)) = [(0, 5), (5, 5), (5, 7)] ∧
      ∀ step ∈ steps [.decode .output, .read .hash, .read .varBytes]
        (Reader.ofBytes [1, 0, 0, 0, 9, 1, 7]),
        step.after.position + step.after.remaining = 7 ∧
          ∀ {needed remaining}, step.answer = .error (.truncated needed remaining) →
            remaining = step.after.remaining := by
  refine ⟨rfl, fun step member => ?_⟩
  have honest := (steps_honest _ _).2.1 step member
  exact ⟨honest.total, honest.truthful⟩

end Call

end Utxo
