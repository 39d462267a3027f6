/-
**What stands in the place of a field or of an element is read by the form of that place.**

* `Json.FieldPlace`: the place of a field, under its name in an object or at its index in a list;
  `Json.ElementPlace`: that of an element.
* `Record.FieldAt`: a description that reads this field by that form; `FieldAt.field`, `first`, `behind` and
  `convert` find it in a description that is put together. `FieldAt.of_ofJson`: whenever such a record is
  read, whatever stands in the place was read as that.
* `JsonForm.exists_ofJson_of_element`: the same of lists.
-/

import Utxo.Proofs.Json.Form

namespace Utxo

namespace Json

/-- The place of a field, under its name in an object or at its index in a list of values. -/
inductive FieldPlace (name : String) (index : Nat) : Json → Json → Prop
  | member {members : List (Text × Json)} {key : Text} {json : Json} (here : (key, json) ∈ members)
      (named : key.toString? = some name) : FieldPlace name index (.object members) json
  | element {elements : List Json} {json : Json} (here : elements[index]? = some json) :
      FieldPlace name index (.array elements) json

/-- The place of an element. -/
inductive ElementPlace : Json → Json → Prop
  | element {elements : List Json} {json : Json} (here : json ∈ elements) :
      ElementPlace (.array elements) json

namespace Record

variable {α β : Type} {name : String} {index : Nat} {Read : Json → Prop}

/-- **The field of this name and this index is read, and only from what `Read` tells.** -/
structure FieldAt (record : Record α) (name : String) (index : Nat) (Read : Json → Prop) : Prop where
  member : ∀ (slots : record.Slots) (json : Json), ∃ outcome,
    record.fill slots name json = some outcome ∧ ∀ filled, outcome = .ok filled → Read json
  element : ∀ {elements rest : List Json} {value : α}, record.ofElements elements = .ok (value, rest) →
    ∀ {json}, elements[index]? = some json → Read json

namespace FieldAt

/-- A single field is read by the form of its type. -/
protected theorem field [JsonForm α] (name : String) (default? : Option α) :
    FieldAt (field name default?) name 0 fun json => ∃ value : α, JsonForm.ofJson json = .ok value where
  member slots json := by
    cases slots with
    | some value =>
      refine ⟨.error .malformed, fill_field_of_some, ?_⟩
      rintro _ ⟨⟩
    | none =>
      refine ⟨some <$> JsonForm.ofJson json, fill_field, fun filled read => ?_⟩
      obtain ⟨value, read, -⟩ := exceptMap_eq_ok_iff.mp read
      exact ⟨value, read⟩
  element {elements _ _} read json here := by
    cases elements with
    | nil => cases here
    | cons first more =>
      obtain ⟨value, read, -⟩ := exceptMap_eq_ok_iff.mp read
      cases here
      exact ⟨value, read⟩

variable {second : Record β} {default? : Option α}

/-- The first of several fields. -/
protected theorem first {first : Record α} (fieldAt : FieldAt first name index Read) :
    FieldAt (first.and second) name index Read where
  member slots json := by
    obtain ⟨outcome, filled, reads⟩ := fieldAt.member slots.1 json
    refine ⟨(·, slots.2) <$> outcome, fill_and_of_some filled, fun after read => ?_⟩
    obtain ⟨between, same, -⟩ := exceptMap_eq_ok_iff.mp read
    exact reads between same
  element read _ here := by
    obtain ⟨⟨left, between⟩, front, -⟩ := exceptBind_eq_ok_iff.mp read
    exact fieldAt.element front here

/-- A single field takes a single element. -/
theorem ofElements_field [JsonForm α] {other : String} {elements rest : List Json} {value : α}
    (read : (field other default?).ofElements elements = .ok (value, rest)) : rest = elements.drop 1 := by
  cases elements with
  | nil =>
    obtain ⟨_, -, same⟩ := exceptMap_eq_ok_iff.mp read
    exact (Prod.mk.inj same).2.symm
  | cons json more =>
    obtain ⟨_, -, same⟩ := exceptMap_eq_ok_iff.mp read
    exact (Prod.mk.inj same).2.symm

/-- A field behind another one, which has another name. -/
protected theorem behind [JsonForm α] {other : String} (fieldAt : FieldAt second name index Read)
    (apart : name ≠ other) : FieldAt ((field other default?).and second) name (index + 1) Read where
  member slots json := by
    obtain ⟨outcome, filled, reads⟩ := fieldAt.member slots.2 json
    refine ⟨(slots.1, ·) <$> outcome, ?_, fun after read => ?_⟩
    · refine (fill_and_of_none (fill_field_of_ne apart)).trans ?_
      rw [filled]
      rfl
    · obtain ⟨between, same, -⟩ := exceptMap_eq_ok_iff.mp read
      exact reads between same
  element {elements _ _} read _ here := by
    obtain ⟨⟨left, between⟩, front, read⟩ := exceptBind_eq_ok_iff.mp read
    obtain ⟨⟨right, after⟩, back, -⟩ := exceptBind_eq_ok_iff.mp read
    obtain rfl := ofElements_field front
    refine fieldAt.element back ?_
    rw [List.getElem?_drop, Nat.add_comm]
    exact here

protected theorem convert {record : Record α} {make : α → β} {view : β → α}
    (fieldAt : FieldAt record name index Read) : FieldAt (record.convert make view) name index Read where
  member := fieldAt.member
  element read _ here := by
    obtain ⟨⟨value, rest⟩, read, -⟩ := exceptMap_eq_ok_iff.mp read
    exact fieldAt.element read here

variable {record : Record α} {json place : Json} {value : α}

/-- Of members that were all read, one of the field's name was read as told. -/
theorem of_fillAll (fieldAt : FieldAt record name index Read) {members : List (Text × Json)}
    {slots after : record.Slots} (read : record.fillAll slots members = .ok after) {key : Text}
    (here : (key, place) ∈ members) (named : key.toString? = some name) : Read place := by
  induction members generalizing slots with
  | nil => cases here
  | cons member rest ih =>
    obtain ⟨between, ⟨taken, otherNamed, takes⟩, read⟩ := fillAll_cons_eq_ok_iff.mp read
    rcases List.mem_cons.mp here with rfl | later
    · obtain rfl := Option.some.inj (named.symm.trans otherNamed)
      obtain ⟨outcome, filled, reads⟩ := fieldAt.member slots place
      rcases takes with into | ⟨foreign, -⟩
      · exact reads _ (Option.some.inj (filled.symm.trans into))
      -- a member of the field's name is not skipped
      · cases filled.symm.trans foreign
    · exact ih read later

/-- **Whenever a record is read, what stands in the place of a field was read as that.** -/
theorem of_ofJson (fieldAt : FieldAt record name index Read) (read : record.ofJson json = .ok value)
    (here : FieldPlace name index json place) : Read place := by
  cases here with
  | member here named =>
    obtain ⟨slots, filled, -⟩ := exceptBind_eq_ok_iff.mp read
    exact fieldAt.of_fillAll filled here named
  | element here =>
    obtain ⟨⟨value, rest⟩, elements, -⟩ := exceptBind_eq_ok_iff.mp read
    exact fieldAt.element elements here

end FieldAt

end Record

end Json

namespace JsonForm

variable {α : Type} [JsonForm α]

/-- A list that is read has as many elements as were read, each of them by itself. -/
theorem exists_ofJson_of_mem {elements : List Json} {values : List α}
    (read : listOfJson elements = .ok values) :
    elements.length = values.length ∧
      ∀ json ∈ elements, ∃ value : α, ofJson json = .ok value := by
  induction elements generalizing values with
  | nil =>
    cases read
    exact ⟨rfl, by simp⟩
  | cons element rest ih =>
    obtain ⟨value, head, read⟩ := exceptBind_eq_ok_iff.mp read
    obtain ⟨others, tail, same⟩ := exceptBind_eq_ok_iff.mp read
    obtain ⟨length, each⟩ := ih tail
    cases same
    rw [List.forall_mem_cons]
    exact ⟨by rw [List.length_cons, List.length_cons, length], ⟨value, head⟩, each⟩

/-- **Whenever a list is read, each of its elements was.** -/
theorem exists_ofJson_of_element {json place : Json} {values : List α} (read : ofJson json = .ok values)
    (here : Json.ElementPlace json place) : ∃ value : α, ofJson place = .ok value := by
  cases here with
  | element here => exact (exists_ofJson_of_mem read).2 _ here

end JsonForm

end Utxo
