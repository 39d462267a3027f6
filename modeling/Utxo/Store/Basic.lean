/-
**Stores of byte strings under text keys.**

* `BlockStore σ`: what a store of type `σ` can do.
* `MemoryStore`: keeps everything; a key that was never saved is not found.
* `UnavailableStore`: fails every call with one text.
-/

import Std.Data.HashMap
import Utxo.Bytes.Basic

namespace Utxo

/-- How a store fails. -/
inductive StorageError
  | notFound (key : String)
  | backend (text : String)
deriving DecidableEq, Repr

/-- What a caller is told. -/
def StorageError.message : StorageError → String
  | .notFound key => "Key not found: " ++ key
  | .backend text => "Storage backend failure: " ++ text

/-- A store: saving yields the store that holds the new entry. -/
class BlockStore (σ : Type) where
  save : σ → String → Bytes → Except StorageError σ
  get : σ → String → Except StorageError Bytes

/-- A store that lives in memory. -/
structure MemoryStore where
  entries : Std.HashMap String Bytes

namespace MemoryStore

/-- The store of no entries. -/
def empty : MemoryStore := ⟨∅⟩

/-- The number of keys. -/
def size (store : MemoryStore) : Nat := store.entries.size

/-- Whether there is no key. -/
def isEmpty (store : MemoryStore) : Bool := store.entries.isEmpty

/-- Whether something was saved under the key. -/
def contains (store : MemoryStore) (key : String) : Bool := store.entries.contains key

/-- Puts the bytes under the key, in place of what was there. -/
def save (store : MemoryStore) (key : String) (bytes : Bytes) : MemoryStore :=
  ⟨store.entries.insert key bytes⟩

/-- The bytes under the key. -/
def get (store : MemoryStore) (key : String) : Except StorageError Bytes :=
  match store.entries[key]? with
  | some bytes => .ok bytes
  | none => .error (.notFound key)

instance : BlockStore MemoryStore := ⟨fun store key bytes => .ok (store.save key bytes), get⟩

end MemoryStore

/-- A store that cannot be reached, and the reason. -/
structure UnavailableStore where
  reason : String

instance : BlockStore UnavailableStore :=
  ⟨fun store _ _ => .error (.backend store.reason), fun store _ => .error (.backend store.reason)⟩

end Utxo
