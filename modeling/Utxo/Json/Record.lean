/-
**Records as JSON objects.**

A record is described once, field by field; the description reads and writes it. Fields may come in
any order, members of other names are skipped, a field that comes twice is refused, and so is one
that is missing, unless it has a default. A record may also be written as the list of its fields'
values.

* `Record.field`, `Record.and`, `Record.convert`: descriptions.
* `Record.toJson`, `Record.ofJson`: what they describe.
-/

import Utxo.Json.Form

namespace Utxo.Json

/-- The description of a record with values in `α`. `Slots` holds what was read so far; `fill`
answers nothing for a name that no field has. -/
structure Record (α : Type) where
  Slots : Type
  empty : Slots
  fill : Slots → String → Json → Option (Except Fault Slots)
  finish : Slots → Except Fault α
  ofElements : List Json → Except Fault (α × List Json)
  members : α → List (String × Json)

namespace Record

variable {α β : Type}

/-- The value that stands in for a missing one. -/
def orDefault (default? : Option α) : Except Fault α :=
  match default? with
  | some value => .ok value
  | none => .error .malformed

/-- A single field, and what it holds if it is missing. -/
def field [JsonForm α] (name : String) (default? : Option α) : Record α where
  Slots := Option α
  empty := none
  fill slot key json :=
    if key = name then
      match slot with
      | some _ => some (.error .malformed)
      | none => some (some <$> JsonForm.ofJson json)
    else none
  finish
    | some value => .ok value
    | none => orDefault default?
  ofElements
    | json :: rest => (·, rest) <$> JsonForm.ofJson json
    | [] => (·, []) <$> orDefault default?
  members value := [(name, JsonForm.toJson value)]

/-- The fields of one description, then those of another. -/
def and (first : Record α) (second : Record β) : Record (α × β) where
  Slots := first.Slots × second.Slots
  empty := (first.empty, second.empty)
  fill slots key json :=
    match first.fill slots.1 key json with
    | some filled => some ((·, slots.2) <$> filled)
    | none => (fun filled => (slots.1, ·) <$> filled) <$> second.fill slots.2 key json
  finish slots := do
    let left ← first.finish slots.1
    let right ← second.finish slots.2
    return (left, right)
  ofElements elements := do
    let (left, elements) ← first.ofElements elements
    let (right, elements) ← second.ofElements elements
    return ((left, right), elements)
  members value := first.members value.1 ++ second.members value.2

/-- The same fields for another type. -/
def convert (record : Record α) (make : α → β) (view : β → α) : Record β where
  Slots := record.Slots
  empty := record.empty
  fill := record.fill
  finish slots := make <$> record.finish slots
  ofElements elements := (fun (value, rest) => (make value, rest)) <$> record.ofElements elements
  members value := record.members (view value)

/-- Reads members in order. A key has to be text even if no field has its name, and a skipped value
has to be whole. -/
def fillAll (record : Record α) (slots : record.Slots) :
    List (Text × Json) → Except Fault record.Slots
  | [] => .ok slots
  | (key, json) :: rest =>
    match key.toString? with
    | none => .error .malformed
    | some name =>
      match record.fill slots name json with
      | some (.ok filled) => record.fillAll filled rest
      | some (.error fault) => .error fault
      | none => if json.isIntact then record.fillAll slots rest else .error .malformed

/-- Reads a record from an object or from the list of its fields' values. -/
def ofJson (record : Record α) : Json → Except Fault α
  | .object members => do record.finish (← record.fillAll record.empty members)
  | .array elements => do
    let (value, rest) ← record.ofElements elements
    if rest.isEmpty then return value else throw .malformed
  | _ => .error .malformed

/-- Writes a record as an object, its fields in the order of the description. -/
def toJson (record : Record α) (value : α) : Json :=
  .object ((record.members value).map fun (name, json) => (Text.ofString name, json))

end Record

end Utxo.Json
