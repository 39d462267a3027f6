/-
**Values with a JSON form.**

* `JsonForm α`: how values of `α` are written and read. Reading goes through the text from the left
  and reports the first thing that is wrong; a value that breaks off is wrong where it does.
* `JsonForm.ofString`: reads a text that holds one value.
* Forms of integers in the range of their type, of lists, and of byte strings as lists of integers.
-/

import Utxo.Hash.Digest
import Utxo.Json.Document

namespace Utxo

namespace Json

/-- Why a text is not the JSON form of a value. -/
inductive Fault
  | malformed
  | fieldTooLong (fault : FieldTooLong)
deriving DecidableEq, Repr

end Json

/-- A JSON form for the values of a type. -/
class JsonForm (α : Type) where
  toJson : α → Json
  ofJson : Json → Except Json.Fault α

namespace JsonForm

variable {α : Type} [JsonForm α]

/-- The value that a document holds, if nothing follows it. -/
def ofDocument (document : Json.Document) : Except Json.Fault α := do
  let value ← ofJson document.value
  if document.isWhole then return value else throw .malformed

/-- The value that a text holds. -/
def ofString (text : String) : Except Json.Fault α := ofDocument (Json.Document.ofString text)

/-- The text of a value, without blanks. -/
def toCompactString (value : α) : String := String.ofList (toJson value).compact

/-- The text of a value, on indented lines. -/
def toPrettyString (value : α) : String := String.ofList ((toJson value).pretty 0)

/-! ### Integers -/

/-- An integer as a number. -/
def ofInt (value : Int) : Json := .number (.ofInt value)

/-- An integer between two bounds. -/
def integerBetween (least greatest : Int) : Json → Except Json.Fault Int
  | .number number =>
    match number.integer? with
    | some value => if least ≤ value ∧ value ≤ greatest then .ok value else .error .malformed
    | none => .error .malformed
  | _ => .error .malformed

instance : JsonForm UInt8 where
  toJson value := ofInt value.toNat
  ofJson json := (fun value => UInt8.ofNat value.toNat) <$> integerBetween 0 (UInt8.size - 1) json

instance : JsonForm UInt32 where
  toJson value := ofInt value.toNat
  ofJson json := (fun value => UInt32.ofNat value.toNat) <$> integerBetween 0 (UInt32.size - 1) json

instance : JsonForm UInt64 where
  toJson value := ofInt value.toNat
  ofJson json := (fun value => UInt64.ofNat value.toNat) <$> integerBetween 0 (UInt64.size - 1) json

instance : JsonForm Int32 where
  toJson value := ofInt value.toInt
  ofJson json := Int32.ofInt <$> integerBetween Int32.minValue.toInt Int32.maxValue.toInt json

instance : JsonForm Int64 where
  toJson value := ofInt value.toInt
  ofJson json := Int64.ofInt <$> integerBetween Int64.minValue.toInt Int64.maxValue.toInt json

/-! ### Lists and byte strings -/

/-- Reads elements in order. -/
def listOfJson : List Json → Except Json.Fault (List α)
  | [] => .ok []
  | element :: rest => do
    let value ← ofJson element
    return value :: (← listOfJson rest)

instance : JsonForm (List α) where
  toJson values := .array (values.map toJson)
  ofJson
    | .array elements => listOfJson elements
    | _ => .error .malformed

instance {n : Nat} : JsonForm (FixedBytes n) where
  toJson value := toJson value.toBytes
  ofJson json := do
    match FixedBytes.ofBytes? (← ofJson json) with
    | some value => return value
    | none => throw .malformed

instance : JsonForm VarBytes where
  toJson field := toJson field.toBytes
  ofJson json := do
    match VarBytes.ofBytes (← ofJson json) with
    | .ok field => return field
    | .error fault => throw (.fieldTooLong fault)

end JsonForm

end Utxo
