/-
**What a store of blocks holds after any run of calls.**

A block is loaded by the text of its identifier, and nothing looks at the identifier again. That the
right block is found rests on what every run keeps.

* `MemoryStore.get_save` and its kin: what a save does to each read; `MemoryStore.Alike`: no read tells
  two stores apart, which is so when they have the same entries (`alike_of_get_eq`).
* `StoreCall.perform`, `StoreCall.run`: calls on a store, saves and reads, one after another.
* `MemoryStore.Keeps`: the entries of a store are the forms of given blocks under their keys;
  `Keeps.save`: a save keeps this, and `keeps_run`: so does every run, by induction on it.
* `CollisionFree`: no two of the blocks share an identifier; `Keeps.get_of_mem`: then each is kept.
* `StoreCall.run_keeps`: what can be read after a run, in full.
-/

import Mathlib.Data.Finset.Card
import Utxo.Validator
import Utxo.Proofs.Ledger.Forms
import Utxo.Proofs.Text.Hex

namespace Utxo

open Validator (blockKey saveBlock loadBlockWithin)

/-! ### One save -/

namespace MemoryStore

variable {store first second : MemoryStore} {key : String} {bytes : Bytes}

theorem get_eq_ok_iff : store.get key = .ok bytes ↔ store.entries[key]? = some bytes := by
  unfold get
  cases store.entries[key]? with
  | none => simp
  | some other => simp

theorem get_empty (key : String) : empty.get key = .error (.notFound key) := by
  unfold get empty
  rw [Std.HashMap.getElem?_empty]

theorem get_save (store : MemoryStore) (key other : String) (bytes : Bytes) :
    (store.save key bytes).get other = if key = other then .ok bytes else store.get other := by
  unfold get save
  rw [Std.HashMap.getElem?_insert]
  by_cases same : key = other
  · simp [same]
  · simp [same]

theorem size_save (store : MemoryStore) (key : String) (bytes : Bytes) :
    (store.save key bytes).size = if store.contains key then store.size else store.size + 1 :=
  Std.HashMap.size_insert

theorem contains_iff : store.contains key = true ↔ ∃ bytes, store.get key = .ok bytes := by
  unfold contains
  rw [Std.HashMap.contains_eq_isSome_getElem?, Option.isSome_iff_exists]
  simp only [get_eq_ok_iff]

theorem get_of_not_contains (absent : ¬ store.contains key = true) :
    store.get key = .error (.notFound key) := by
  rw [contains_iff] at absent
  cases found : store.entries[key]? with
  | some bytes => exact absurd ⟨bytes, get_eq_ok_iff.mpr found⟩ absent
  | none =>
    unfold get
    rw [found]

/-! ### Reads -/

theorem loadBlockWithin_of_get {hash : String} (limit : UInt64)
    (found : store.get (blockKey hash) = .ok bytes) :
    loadBlockWithin limit store hash =
      (Wire.decodeExact (α := Block) bytes limit.toNat).mapError .decode := by
  have answer : BlockStore.get store (blockKey hash) = .ok bytes := found
  rw [loadBlockWithin, answer]

theorem loadBlockWithin_of_not_contains {hash : String} (limit : UInt64)
    (absent : ¬ store.contains (blockKey hash) = true) :
    loadBlockWithin limit store hash = .error (.storage (.notFound (blockKey hash))) := by
  have answer : BlockStore.get store (blockKey hash) = .error (.notFound (blockKey hash)) :=
    get_of_not_contains absent
  rw [loadBlockWithin, answer]

/-- **No read tells the two stores apart.** -/
structure Alike (first second : MemoryStore) : Prop where
  get_eq : ∀ key, first.get key = second.get key
  contains_eq : ∀ key, first.contains key = second.contains key
  size_eq : first.size = second.size
  isEmpty_eq : first.isEmpty = second.isEmpty
  load_eq : ∀ limit hash, loadBlockWithin limit first hash = loadBlockWithin limit second hash

/-- Stores with the same entries are alike. -/
theorem alike_of_get_eq (same : ∀ key, first.get key = second.get key) : Alike first second := by
  have entries : first.entries.Equiv second.entries := by
    refine Std.HashMap.Equiv.of_forall_getElem?_eq fun key => Option.ext fun bytes => ?_
    rw [← get_eq_ok_iff, same key, get_eq_ok_iff]
  refine ⟨same, fun key => entries.contains_eq, entries.size_eq, entries.isEmpty_eq,
    fun limit hash => ?_⟩
  have answer : BlockStore.get first (blockKey hash) = BlockStore.get second (blockKey hash) := same _
  unfold loadBlockWithin
  rw [answer]

end MemoryStore

/-! ### Runs of calls -/

/-- A call on a store of blocks. -/
inductive StoreCall
  | save (block : Block)
  | load (limit : UInt64) (hash : String)
  | get (key : String)
  | contains (key : String)
  | size
  | isEmpty

/-- What a call answers. -/
inductive StoreAnswer
  | saved (answer : Except Error String)
  | loaded (answer : Except Error Block)
  | got (answer : Except StorageError Bytes)
  | holds (answer : Bool)
  | counted (answer : Nat)

namespace StoreCall

/-- The answer to a call, and the store behind it. -/
def perform (store : MemoryStore) : StoreCall → StoreAnswer × MemoryStore
  | save block =>
    match saveBlock store block with
    | .ok (hash, after) => (.saved (.ok hash), after)
    | .error fault => (.saved (.error fault), store)
  | load limit hash => (.loaded (loadBlockWithin limit store hash), store)
  | get key => (.got (store.get key), store)
  | contains key => (.holds (store.contains key), store)
  | size => (.counted store.size, store)
  | isEmpty => (.holds store.isEmpty, store)

/-- The store behind calls, one after another. -/
def run (store : MemoryStore) (calls : List StoreCall) : MemoryStore :=
  calls.foldl (fun store call => (perform store call).2) store

/-- The block that a call saves, if it is a save. -/
def saved? : StoreCall → Option Block
  | save block => some block
  | _ => none

/-- The blocks that calls save, in order. -/
def savedBy (calls : List StoreCall) : List Block := calls.filterMap saved?

end StoreCall

/-! ### What a run keeps -/

/-- The key that a block is kept under. -/
def Block.key (block : Block) : String := blockKey block.hash.toHex

/-- Keys tell identifiers. -/
theorem Validator.blockKey_inj {first second : String} (same : blockKey first = blockKey second) :
    first = second :=
  (String.append_right_inj _).mp same

theorem Block.hash_eq_of_key_eq {first second : Block} (same : first.key = second.key) :
    first.hash = second.hash :=
  Hash.toHex_inj (Validator.blockKey_inj same)

namespace MemoryStore

variable {store : MemoryStore} {blocks : List Block} {block : Block}

/-- **The entries are forms of these blocks, under their keys**, and there is one for the key of
each. -/
structure Keeps (store : MemoryStore) (blocks : List Block) : Prop where
  entry : ∀ key bytes, store.get key = .ok bytes → ∃ block ∈ blocks, key = block.key ∧ bytes = block.encode
  present : ∀ block ∈ blocks, store.contains block.key = true
  size_eq : store.size = (blocks.map Block.key).toFinset.card

theorem Keeps.empty : MemoryStore.empty.Keeps [] where
  entry key bytes found := by
    rw [get_empty] at found
    cases found
  present block member := by cases member
  size_eq := rfl

theorem Keeps.contains_iff (keeps : store.Keeps blocks) {key : String} :
    store.contains key = true ↔ ∃ block ∈ blocks, key = block.key := by
  constructor
  · intro holds
    obtain ⟨bytes, found⟩ := MemoryStore.contains_iff.mp holds
    obtain ⟨block, member, same, _⟩ := keeps.entry key bytes found
    exact ⟨block, member, same⟩
  · rintro ⟨block, member, rfl⟩
    exact keeps.present block member

/-- **A save keeps it.** -/
theorem Keeps.save (keeps : store.Keeps blocks) (block : Block) :
    (store.save block.key block.encode).Keeps (blocks ++ [block]) where
  entry key bytes found := by
    rw [get_save] at found
    by_cases same : block.key = key
    · rw [if_pos same] at found
      exact ⟨block, by simp, same.symm, (Except.ok.inj found).symm⟩
    · rw [if_neg same] at found
      obtain ⟨other, member, here⟩ := keeps.entry key bytes found
      exact ⟨other, List.mem_append_left _ member, here⟩
  present other member := by
    rw [MemoryStore.contains_iff]
    by_cases same : block.key = other.key
    · exact ⟨block.encode, by rw [get_save, if_pos same]⟩
    · have earlier : other ∈ blocks := by
        rcases List.mem_append.mp member with earlier | last
        · exact earlier
        · exact absurd (congrArg Block.key (List.mem_singleton.mp last)).symm same
      obtain ⟨bytes, found⟩ := MemoryStore.contains_iff.mp (keeps.present other earlier)
      exact ⟨bytes, by rw [get_save, if_neg same, found]⟩
  size_eq := by
    have keys : ((blocks ++ [block]).map Block.key).toFinset =
        insert block.key (blocks.map Block.key).toFinset := by
      ext key
      simp
    have known : block.key ∈ (blocks.map Block.key).toFinset ↔ store.contains block.key = true := by
      rw [keeps.contains_iff]
      simp [eq_comm]
    rw [keys, Finset.card_insert_eq_ite, size_save, keeps.size_eq]
    simp only [known]

end MemoryStore

namespace StoreCall

open MemoryStore

/-- **One call keeps it.** -/
theorem keeps_perform {store : MemoryStore} {blocks : List Block} (keeps : store.Keeps blocks)
    (call : StoreCall) : (perform store call).2.Keeps (blocks ++ savedBy [call]) := by
  -- a read saves nothing
  have still : store.Keeps (blocks ++ []) := by
    rw [List.append_nil]
    exact keeps
  cases call with
  | save block => exact keeps.save block
  | load limit hash => exact still
  | get key => exact still
  | contains key => exact still
  | size => exact still
  | isEmpty => exact still

/-- **Every run keeps it.** -/
theorem keeps_run (calls : List StoreCall) : (run .empty calls).Keeps (savedBy calls) := by
  -- the last call comes last: what was saved before it is what the store holds then
  induction calls using List.reverseRecOn with
  | nil => exact .empty
  | append_singleton calls call ih =>
    have last := keeps_perform ih call
    unfold run savedBy at last ⊢
    rw [List.foldl_append, List.filterMap_append]
    exact last

end StoreCall

/-! ### Blocks without collisions -/

/-- **No two different blocks of the list have one identifier.** -/
def CollisionFree (blocks : List Block) : Prop :=
  ∀ first ∈ blocks, ∀ second ∈ blocks,
    doubleSha256 first.encode = doubleSha256 second.encode → first = second

instance (blocks : List Block) : Decidable (CollisionFree blocks) :=
  inferInstanceAs (Decidable (∀ first ∈ blocks, ∀ second ∈ blocks, _))

theorem CollisionFree.eq_of_key_eq {blocks : List Block} (free : CollisionFree blocks)
    {first second : Block} (firstMember : first ∈ blocks) (secondMember : second ∈ blocks)
    (same : first.key = second.key) : first = second :=
  free first firstMember second secondMember (Block.hash_eq_of_key_eq same)

/-- The form of a block is read back within every limit that it is not above. -/
theorem Block.decodeExact_encode (block : Block) (limit : UInt64) :
    Wire.decodeExact block.encode limit.toNat =
      if block.encode.length ≤ limit.toNat then .ok block
      else .error (.tooLarge block.encode.length limit.toNat) := by
  by_cases short : block.encode.length ≤ limit.toNat
  · rw [if_pos short]
    have countable := Block.countable_of_length_lt (Nat.lt_of_le_of_lt short limit.toNat_lt)
    exact (Wire.decodeExact_eq_ok_iff Block.decoder_inverts).mpr ⟨countable, short, rfl⟩
  · rw [if_neg short]
    exact Wire.decodeExact_of_error (Wire.decodeWithLimit_of_lt (Nat.not_le.mp short))

namespace MemoryStore

variable {store other : MemoryStore} {blocks others : List Block} {block : Block}

/-- **What is loaded was saved**, under the identifier that it is loaded by. -/
theorem Keeps.mem_of_load (keeps : store.Keeps blocks) {limit : UInt64} {hash : String}
    (loaded : loadBlockWithin limit store hash = .ok block) :
    block ∈ blocks ∧ block.hash.toHex = hash := by
  by_cases holds : store.contains (blockKey hash) = true
  · obtain ⟨bytes, found⟩ := MemoryStore.contains_iff.mp holds
    obtain ⟨saved, member, same, rfl⟩ := keeps.entry _ bytes found
    rw [loadBlockWithin_of_get limit found, Block.decodeExact_encode] at loaded
    split at loaded
    next =>
      cases loaded
      exact ⟨member, (Validator.blockKey_inj same).symm⟩
    next => cases loaded
  · rw [loadBlockWithin_of_not_contains limit holds] at loaded
    cases loaded

/-- Without collisions, each block is what its key holds. -/
theorem Keeps.get_of_mem (keeps : store.Keeps blocks) (free : CollisionFree blocks)
    (member : block ∈ blocks) : store.get block.key = .ok block.encode := by
  obtain ⟨bytes, found⟩ := MemoryStore.contains_iff.mp (keeps.present block member)
  obtain ⟨saved, among, same, rfl⟩ := keeps.entry _ bytes found
  rw [found, free.eq_of_key_eq member among same]

theorem Keeps.load_of_mem (keeps : store.Keeps blocks) (free : CollisionFree blocks)
    (member : block ∈ blocks) (limit : UInt64) :
    loadBlockWithin limit store block.hash.toHex =
      if block.encode.length ≤ limit.toNat then .ok block
      else .error (.decode (.tooLarge block.encode.length limit.toNat)) := by
  rw [loadBlockWithin_of_get limit (keeps.get_of_mem free member), Block.decodeExact_encode]
  by_cases short : block.encode.length ≤ limit.toNat
  · rw [if_pos short, if_pos short]
    rfl
  · rw [if_neg short, if_neg short]
    rfl

theorem Keeps.load_of_notMem (keeps : store.Keeps blocks) {hash : String}
    (unknown : ∀ block ∈ blocks, block.hash.toHex ≠ hash) (limit : UInt64) :
    loadBlockWithin limit store hash = .error (.storage (.notFound (blockKey hash))) := by
  refine loadBlockWithin_of_not_contains limit fun holds => ?_
  obtain ⟨block, member, same⟩ := keeps.contains_iff.mp holds
  exact unknown block member (Validator.blockKey_inj same).symm

/-- Without collisions, the store has an entry for each different block. -/
theorem Keeps.size_of_free (keeps : store.Keeps blocks) (free : CollisionFree blocks) :
    store.size = blocks.toFinset.card := by
  have keys : (blocks.map Block.key).toFinset = blocks.toFinset.image Block.key := by
    ext key
    simp
  rw [keeps.size_eq, keys]
  refine Finset.card_image_of_injOn fun first firstMember second secondMember same => ?_
  exact free.eq_of_key_eq (List.mem_toFinset.mp firstMember) (List.mem_toFinset.mp secondMember) same

/-- **Stores of the same blocks are alike**, in whatever order these came. -/
theorem Keeps.alike (keeps : store.Keeps blocks) (also : other.Keeps others)
    (free : CollisionFree blocks) (same : ∀ block, block ∈ others ↔ block ∈ blocks) :
    other.Alike store := by
  have otherFree : CollisionFree others := fun first firstMember second secondMember =>
    free first ((same first).mp firstMember) second ((same second).mp secondMember)
  refine alike_of_get_eq fun key => ?_
  by_cases holds : store.contains key = true
  · obtain ⟨block, member, rfl⟩ := keeps.contains_iff.mp holds
    rw [keeps.get_of_mem free member, also.get_of_mem otherFree ((same block).mpr member)]
  · have absent : ¬ other.contains key = true := fun holds' => by
      obtain ⟨block, member, rfl⟩ := also.contains_iff.mp holds'
      exact holds (keeps.present block ((same block).mp member))
    rw [get_of_not_contains holds, get_of_not_contains absent]

/-- Saving what a key holds already changes no read. -/
theorem alike_save_of_get {key : String} {bytes : Bytes} (held : store.get key = .ok bytes) :
    (store.save key bytes).Alike store := by
  refine alike_of_get_eq fun other => ?_
  rw [get_save]
  by_cases same : key = other
  · rw [if_pos same, ← same, held]
  · rw [if_neg same]

end MemoryStore

namespace StoreCall

open MemoryStore

/-- **A store of blocks after any run of calls.** Its entries are forms of blocks that were saved, each
under its key, so a block that is loaded was saved, and under its own identifier. Where no two of the
saved blocks collide, each is loaded as it was saved, within every limit that it is not above, there are
as many entries as different blocks, and the order of the saves does not matter. Nor does saving a
block that is held already. -/
theorem run_keeps (calls : List StoreCall) :
    (∀ block, (perform (run .empty calls) (save block)).1 = .saved (.ok block.hash.toHex)) ∧
    (∀ key bytes, (run .empty calls).get key = .ok bytes →
      ∃ block ∈ savedBy calls, key = blockKey block.hash.toHex ∧ bytes = block.encode) ∧
    (∀ limit hash block, loadBlockWithin limit (run .empty calls) hash = .ok block →
      block ∈ savedBy calls ∧ block.hash.toHex = hash) ∧
    (∀ limit hash, (∀ block ∈ savedBy calls, block.hash.toHex ≠ hash) →
      loadBlockWithin limit (run .empty calls) hash =
        .error (.storage (.notFound (blockKey hash)))) ∧
    (CollisionFree (savedBy calls) →
      (∀ block ∈ savedBy calls, ∀ limit,
        loadBlockWithin limit (run .empty calls) block.hash.toHex =
          if block.encode.length ≤ limit.toNat then .ok block
          else .error (.decode (.tooLarge block.encode.length limit.toNat))) ∧
      (run .empty calls).size = (savedBy calls).toFinset.card ∧
      (∀ block ∈ savedBy calls, (run .empty calls).get (blockKey block.hash.toHex) = .ok block.encode) ∧
      ∀ others, (∀ block, block ∈ savedBy others ↔ block ∈ savedBy calls) →
        (run .empty others).Alike (run .empty calls)) ∧
    ∀ block, (run .empty calls).get (blockKey block.hash.toHex) = .ok block.encode →
      (run .empty (calls ++ [save block])).Alike (run .empty calls) := by
  have keeps := keeps_run calls
  refine ⟨fun block => rfl, keeps.entry, fun limit hash block => keeps.mem_of_load,
    fun limit hash unknown => keeps.load_of_notMem unknown limit, fun free => ?_, fun block held => ?_⟩
  · refine ⟨fun block member => keeps.load_of_mem free member, keeps.size_of_free free,
      fun block member => keeps.get_of_mem free member, fun others same => ?_⟩
    exact keeps.alike (keeps_run others) free same
  · have last : run .empty (calls ++ [save block]) =
        (run .empty calls).save block.key block.encode := List.foldl_append ..
    rw [last]
    exact alike_save_of_get held

/-! ### Two blocks, one of them saved twice -/

/-- A block of 96 bytes without transactions. -/
def blank (nonce : Int32) : Block where
  size := 0
  header := ⟨1, FixedBytes.zero 32, FixedBytes.zero 32, 0, 0, nonce⟩
  transactions := []

/-- Saves of two blocks, one of them again, with reads between them. -/
def blankCalls : List StoreCall :=
  [save (blank 0), load 96 (blank 1).hash.toHex, save (blank 1), size, save (blank 0)]

/-- Two entries are left, in either order of the saves; each is loaded within 96 bytes and no fewer. -/
theorem run_keeps_blankCalls :
    CollisionFree (savedBy blankCalls) ∧ (run .empty blankCalls).size = 2 ∧
      loadBlockWithin 96 (run .empty blankCalls) (blank 0).hash.toHex = .ok (blank 0) ∧
      loadBlockWithin 95 (run .empty blankCalls) (blank 1).hash.toHex =
        .error (.decode (.tooLarge 96 95)) ∧
      (run .empty [save (blank 1), save (blank 0)]).Alike (run .empty blankCalls) ∧
      (run .empty (blankCalls ++ [save (blank 1)])).Alike (run .empty blankCalls) := by
  have free : CollisionFree (savedBy blankCalls) := by decide +kernel
  have first : blank 0 ∈ savedBy blankCalls := by simp [blankCalls, savedBy, saved?]
  have second : blank 1 ∈ savedBy blankCalls := by simp [blankCalls, savedBy, saved?]
  obtain ⟨-, -, -, -, exact, again⟩ := run_keeps blankCalls
  obtain ⟨loads, size, held, order⟩ := exact free
  refine ⟨free, size.trans (by decide), ?_, ?_, order _ fun block => ?_, again _ (held _ second)⟩
  · exact (loads _ first 96).trans (if_pos (by decide))
  · exact (loads _ second 95).trans (if_neg (by decide))
  · show block ∈ [blank 1, blank 0] ↔ block ∈ [blank 0, blank 1, blank 0]
    grind

end StoreCall

end Utxo
