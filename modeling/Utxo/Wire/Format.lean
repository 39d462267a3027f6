/-
**Values with one byte form.**

* `Wire α`: how values of `α` are written and read.
* `Wire.decodeWithLimit`: one value from the front of a byte string, and the number of bytes that
  it took; longer inputs than the limit are refused before anything is read.
* `Wire.decodeExact`: one value that spans the whole byte string.
-/

import Utxo.Wire.Reader

namespace Utxo

/-- A byte form for the values of a type. -/
class Wire (α : Type) where
  encode : α → Bytes
  decoder : Decoder α

/-- The limit of inputs for which none was chosen: 4 MiB. -/
def defaultDecodeLimit : Nat := 4 * 1024 * 1024

namespace Wire

variable {α : Type} [Wire α]

/-- One value from the front of `bytes`, and how many bytes it took. -/
def decodeWithLimit (bytes : Bytes) (limit : Nat) : Except DecodeError (α × Nat) :=
  let reader := Reader.ofBytes bytes
  if limit < reader.remaining then .error (.tooLarge reader.remaining limit)
  else match decoder reader with
    | .ok value reader => .ok (value, reader.position)
    | .error fault _ => .error fault

/-- One value from the front of `bytes`, within the default limit. -/
def decode (bytes : Bytes) : Except DecodeError (α × Nat) :=
  decodeWithLimit bytes defaultDecodeLimit

/-- The value that all of `bytes` encode. -/
def decodeExact (bytes : Bytes) (limit : Nat) : Except DecodeError α := do
  let (value, consumed) ← decodeWithLimit bytes limit
  if consumed ≠ bytes.length then throw (.trailing (bytes.length - consumed))
  return value

/-- The number of a list's elements, in eight bytes. -/
def encodeCount (number : Nat) : Bytes := LittleEndian.encode 8 number

/-- A field behind the byte that tells its length. -/
def encodeVarBytes (field : VarBytes) : Bytes := field.lengthByte :: field.toBytes

/-- The elements of a list behind their number. -/
def encodeList (elements : List α) : Bytes :=
  encodeCount elements.length ++ elements.flatMap encode

/-- A list of elements behind their number, which the rule `count` reads. -/
def decodeList (count : Decoder Nat) (element : Decoder α) : Decoder (List α) := do
  Decoder.exactly (← count) element

end Wire

end Utxo
