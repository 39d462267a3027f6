/-
**What is written as JSON is read back.**

* `JsonForm.Lawful`: every value has a plain JSON form, and is read from it;
  `Lawful.ofString_toCompactString`: so it is read from its text.
* Integers, lists and byte strings are lawful (`lawful_uint8` up to `lawful_varBytes`).
* `Record.Takes`: what one member does to the slots of a record; members are taken one after the other
  (`Record.fillAll_cons_eq_ok_iff`).
* `Record.Lawful`: the description of a record whose members fill its slots, and those of no other name;
  `Record.Lawful.and`, `convert`: descriptions are put together from those of their fields;
  `Record.Lawful.ofJson_toJson`: such a record is read from what is written of it.
-/

import Utxo.Json.Record
import Utxo.Proofs.Answer
import Utxo.Proofs.Json.Compact

namespace Utxo

open Json (Text Number Fault)

namespace JsonForm

/-- **Every value has a plain form, and is read from it.** -/
structure Lawful (α : Type) [JsonForm α] : Prop where
  plain : ∀ value : α, (toJson value).isPlain = true
  back : ∀ value : α, ofJson (toJson value) = .ok value

variable {α : Type} [JsonForm α]

/-- A value is read from a text that holds its form and nothing else. -/
theorem ofString_eq_ok_iff {text : String} {value : α} : ofString text = .ok value ↔
    (Json.Document.ofString text).isWhole = true ∧
      ofJson (Json.Document.ofString text).value = .ok value := by
  refine exceptBind_eq_ok_iff.trans ?_
  cases whole : (Json.Document.ofString text).isWhole with
  | true =>
    refine ⟨?_, fun read => ⟨value, read.2, rfl⟩⟩
    rintro ⟨_, read, ⟨⟩⟩
    exact ⟨rfl, read⟩
  | false =>
    refine ⟨?_, fun read => nomatch read.1⟩
    rintro ⟨_, _, ⟨⟩⟩

/-- **A value is read from its own text.** -/
theorem Lawful.ofString_toCompactString (lawful : Lawful α) (value : α) :
    ofString (toCompactString value) = .ok value := by
  rw [ofString, toCompactString, Json.Document.ofString_compact (lawful.plain value), ofDocument,
    lawful.back]
  rfl

/-! ### Integers -/

theorem integerBetween_ofInt {least greatest value : Int} (atLeast : least ≤ value)
    (atMost : value ≤ greatest) : integerBetween least greatest (ofInt value) = .ok value := by
  rw [ofInt, integerBetween, Number.integer?_ofInt]
  exact if_pos ⟨atLeast, atMost⟩

theorem ofJson_unsigned {β : Type} {number bound : Nat} (small : number < bound) (make : Nat → β) :
    (fun value : Int => make value.toNat) <$> integerBetween 0 (bound - 1) (ofInt number) =
      .ok (make number) := by
  have below : (number : Int) ≤ bound - 1 := Int.le_sub_one_of_lt (Int.ofNat_lt.mpr small)
  rw [integerBetween_ofInt (Int.natCast_nonneg _) below]
  rfl

theorem lawful_uint8 : Lawful UInt8 where
  plain _ := rfl
  back value := (ofJson_unsigned value.toNat_lt UInt8.ofNat).trans (congrArg Except.ok UInt8.ofNat_toNat)

theorem lawful_uint32 : Lawful UInt32 where
  plain _ := rfl
  back value :=
    (ofJson_unsigned value.toNat_lt UInt32.ofNat).trans (congrArg Except.ok UInt32.ofNat_toNat)

theorem lawful_uint64 : Lawful UInt64 where
  plain _ := rfl
  back value :=
    (ofJson_unsigned value.toNat_lt UInt64.ofNat).trans (congrArg Except.ok UInt64.ofNat_toNat)

theorem lawful_int32 : Lawful Int32 where
  plain _ := rfl
  back value := by
    show Int32.ofInt <$> integerBetween _ _ (ofInt value.toInt) = _
    rw [integerBetween_ofInt value.minValue_le_toInt value.toInt_le]
    exact congrArg Except.ok value.ofInt_toInt

theorem lawful_int64 : Lawful Int64 where
  plain _ := rfl
  back value := by
    show Int64.ofInt <$> integerBetween _ _ (ofInt value.toInt) = _
    rw [integerBetween_ofInt value.minValue_le_toInt value.toInt_le]
    exact congrArg Except.ok value.ofInt_toInt

/-! ### Lists and byte strings -/

theorem listOfJson_map_toJson (lawful : Lawful α) (values : List α) :
    listOfJson (values.map toJson) = .ok values := by
  induction values with
  | nil => rfl
  | cons value rest ih =>
    rw [List.map_cons, listOfJson, lawful.back, ih]
    rfl

theorem arePlain_map_toJson (lawful : Lawful α) (values : List α) :
    Json.arePlain (values.map toJson) = true := by
  induction values with
  | nil => rfl
  | cons value rest ih => exact Bool.and_eq_true_iff.mpr ⟨lawful.plain value, ih⟩

theorem Lawful.list (lawful : Lawful α) : Lawful (List α) where
  plain := arePlain_map_toJson lawful
  back := listOfJson_map_toJson lawful

theorem lawful_fixedBytes (n : Nat) : Lawful (FixedBytes n) where
  plain value := lawful_uint8.list.plain value.toBytes
  back value := by
    have read := lawful_uint8.list.back value.toBytes
    refine exceptBind_eq_ok_iff.mpr ⟨value.toBytes, read, ?_⟩
    rw [FixedBytes.ofBytes?_toBytes]
    rfl

theorem lawful_varBytes : Lawful VarBytes where
  plain field := lawful_uint8.list.plain field.toBytes
  back field := by
    have read := lawful_uint8.list.back field.toBytes
    refine exceptBind_eq_ok_iff.mpr ⟨field.toBytes, read, ?_⟩
    rw [VarBytes.ofBytes_toBytes]
    rfl

end JsonForm

/-! ### Records -/

namespace Json.Record

open JsonForm (Lawful)

variable {α β : Type}

section Field

variable [JsonForm α] {name key : String} {default? : Option α} {json : Json}

/-- A field reads what stands under its name. -/
theorem fill_field : (field name default?).fill none name json = some (some <$> JsonForm.ofJson json) :=
  if_pos rfl

/-- It does so once. -/
theorem fill_field_of_some {value : α} :
    (field name default?).fill (some value) name json = some (.error .malformed) :=
  if_pos rfl

theorem fill_field_of_ne (apart : key ≠ name) {slot : Option α} :
    (field name default?).fill slot key json = none :=
  if_neg apart

end Field

section Parts

variable {first : Record α} {second : Record β} {left : first.Slots} {right : second.Slots}
  {name : String} {json : Json}

/-- What the first description reads is read by it. -/
theorem fill_and_of_some {outcome : Except Fault first.Slots}
    (filled : first.fill left name json = some outcome) :
    (first.and second).fill (left, right) name json = some ((·, right) <$> outcome) := by
  simp only [Record.and, filled]

/-- What it does not read is left to the second. -/
theorem fill_and_of_none (foreign : first.fill left name json = none) :
    (first.and second).fill (left, right) name json =
      (fun filled => (left, ·) <$> filled) <$> second.fill right name json := by
  simp only [Record.and, foreign]

end Parts

/-- **What reading does with one member**: it is read into a field of its name or, where no field has this
name, skipped. -/
def Takes (record : Record α) (slots : record.Slots) (member : Text × Json) (after : record.Slots) : Prop :=
  ∃ name, member.1.toString? = some name ∧
    (record.fill slots name member.2 = some (.ok after) ∨
      record.fill slots name member.2 = none ∧ member.2.isIntact = true ∧ after = slots)

/-- Members are taken one after the other. -/
theorem fillAll_cons_eq_ok_iff {record : Record α} {slots after : record.Slots} {member : Text × Json}
    {rest : List (Text × Json)} : record.fillAll slots (member :: rest) = .ok after ↔
      ∃ between, Takes record slots member between ∧ record.fillAll between rest = .ok after := by
  obtain ⟨key, json⟩ := member
  rw [fillAll]
  constructor
  · intro read
    split at read
    next => cases read
    next name named =>
      split at read
      next between filled => exact ⟨between, ⟨name, named, Or.inl filled⟩, read⟩
      next => cases read
      next foreign =>
        split at read
        next intact => exact ⟨slots, ⟨name, named, Or.inr ⟨foreign, intact, rfl⟩⟩, read⟩
        next => cases read
  · intro ⟨between, ⟨name, named, taken⟩, read⟩
    rcases taken with filled | ⟨foreign, intact, rfl⟩
    · simpa only [named, filled] using read
    · simpa only [named, foreign, intact, if_true] using read

/-- **Members that are read into slots**, each of them into a field of its name. -/
inductive Fills (record : Record α) : record.Slots → List (String × Json) → record.Slots → Prop
  | nil {slots : record.Slots} : Fills record slots [] slots
  | cons {slots between after : record.Slots} {name : String} {json : Json}
      {rest : List (String × Json)} (here : record.fill slots name json = some (.ok between))
      (there : Fills record between rest after) : Fills record slots ((name, json) :: rest) after

theorem Fills.append {record : Record α} {slots between after : record.Slots}
    {front back : List (String × Json)} (first : Fills record slots front between)
    (second : Fills record between back after) : Fills record slots (front ++ back) after := by
  induction first with
  | nil => exact second
  | cons here _ ih => exact .cons here (ih second)

theorem Fills.convert {record : Record α} {make : α → β} {view : β → α}
    {slots after : record.Slots} {members : List (String × Json)}
    (fills : Fills record slots members after) :
    Fills (record.convert make view) slots members after := by
  induction fills with
  | nil => exact .nil
  | cons here _ ih => exact .cons here ih

/-- The members of an object. -/
def asMembers (members : List (String × Json)) : List (Text × Json) :=
  members.map fun (name, json) => (Text.ofString name, json)

theorem fillAll_of_fills {record : Record α} {slots after : record.Slots}
    {members : List (String × Json)} (fills : Fills record slots members after) :
    record.fillAll slots (asMembers members) = .ok after := by
  induction fills with
  | nil => rfl
  | cons here _ ih =>
    exact fillAll_cons_eq_ok_iff.mpr ⟨_, ⟨_, Text.toString?_ofString _, Or.inl here⟩, ih⟩

/-- **The description of a record with fields of these names.** It reads no member of another name, and it
reads the members of a value as this value. -/
structure Lawful (record : Record α) (names : List String) : Prop where
  foreign : ∀ {slots : record.Slots} {name : String} {json : Json}, name ∉ names →
    record.fill slots name json = none
  named : ∀ {value : α} {member : String × Json}, member ∈ record.members value → member.1 ∈ names
  plain : ∀ {value : α} {member : String × Json}, member ∈ record.members value →
    (Text.ofString member.1).isPlain = true ∧ member.2.isPlain = true
  back : ∀ value : α, ∃ slots, Fills record record.empty (record.members value) slots ∧
    record.finish slots = .ok value

namespace Lawful

variable {first : Record α} {second : Record β} {names others : List String}

/-- A single field. -/
protected theorem field [JsonForm α] (lawful : JsonForm.Lawful α) {name : String}
    (visible : (Text.ofString name).isPlain = true) (default? : Option α) :
    Lawful (field name default?) [name] where
  foreign apart := fill_field_of_ne fun same => apart (List.mem_singleton.mpr same)
  named member := by
    obtain rfl := List.mem_singleton.mp member
    exact List.mem_singleton_self _
  plain {value _} member := by
    obtain rfl := List.mem_singleton.mp member
    exact ⟨visible, lawful.plain value⟩
  back value := by
    have filled : (field name default?).fill none name (JsonForm.toJson value) =
        some (.ok (some value)) := by
      rw [fill_field, lawful.back]
      rfl
    exact ⟨some value, .cons filled .nil, rfl⟩

/-- Members of the first description are read by it. -/
theorem fills_left {slots after : first.Slots} {members : List (String × Json)}
    (fills : Fills first slots members after) (right : second.Slots) :
    Fills (first.and second) (slots, right) members (after, right) := by
  induction fills with
  | nil => exact .nil
  | cons here _ ih => exact .cons (fill_and_of_some here) ih

/-- Members whose names the first description does not have are read by the second. -/
theorem fills_right (lawful : Lawful first names) {slots after : second.Slots}
    {members : List (String × Json)} (fills : Fills second slots members after)
    (apart : ∀ member ∈ members, member.1 ∉ names) (left : first.Slots) :
    Fills (first.and second) (left, slots) members (left, after) := by
  induction fills with
  | nil => exact .nil
  | cons here _ ih =>
    rw [List.forall_mem_cons] at apart
    refine .cons ((fill_and_of_none (lawful.foreign apart.1)).trans ?_) (ih apart.2)
    rw [here]
    rfl

/-- Two descriptions without a common name. -/
protected theorem and (left : Lawful first names) (right : Lawful second others)
    (disjoint : ∀ name ∈ others, name ∉ names) : Lawful (first.and second) (names ++ others) where
  foreign apart := by
    rw [List.mem_append, not_or] at apart
    refine (fill_and_of_none (left.foreign apart.1)).trans ?_
    rw [right.foreign apart.2]
    rfl
  named member := by
    rcases List.mem_append.mp member with inFirst | inSecond
    · exact List.mem_append_left _ (left.named inFirst)
    · exact List.mem_append_right _ (right.named inSecond)
  plain member := by
    rcases List.mem_append.mp member with inFirst | inSecond
    · exact left.plain inFirst
    · exact right.plain inSecond
  back value := by
    obtain ⟨leftSlots, leftFills, leftBack⟩ := left.back value.1
    obtain ⟨rightSlots, rightFills, rightBack⟩ := right.back value.2
    -- members of the second part are foreign to the first, which leaves them to the second
    have apart : ∀ member ∈ second.members value.2, member.1 ∉ names := fun member inside =>
      disjoint _ (right.named inside)
    refine ⟨(leftSlots, rightSlots),
      (fills_left leftFills second.empty).append (fills_right left rightFills apart leftSlots), ?_⟩
    show (do
      let left ← first.finish leftSlots
      let right ← second.finish rightSlots
      return (left, right)) = _
    rw [leftBack, rightBack]
    rfl

/-- A field, and others of other names. -/
theorem field_and [JsonForm α] (lawful : JsonForm.Lawful α) {name : String} {default? : Option α}
    (fresh : (Text.ofString name).isPlain = true ∧ name ∉ others) (rest : Lawful second others) :
    Lawful ((Record.field name default?).and second) (name :: others) :=
  (Lawful.field lawful fresh.1 default?).and rest fun _ member same =>
    fresh.2 (List.mem_singleton.mp same ▸ member)

/-- The same fields for another type. -/
protected theorem convert {record : Record α} (lawful : Lawful record names) {make : α → β}
    {view : β → α} (made : ∀ value, make (view value) = value) :
    Lawful (record.convert make view) names where
  foreign := lawful.foreign
  named := lawful.named
  plain := lawful.plain
  back value := by
    obtain ⟨slots, fills, back⟩ := lawful.back (view value)
    refine ⟨slots, fills.convert, ?_⟩
    show make <$> record.finish slots = _
    rw [back]
    exact congrArg Except.ok (made value)

/-- **A record is read from what is written of it.** -/
theorem ofJson_toJson {record : Record α} (lawful : Lawful record names) (value : α) :
    record.ofJson (record.toJson value) = .ok value := by
  obtain ⟨slots, fills, back⟩ := lawful.back value
  show (record.fillAll record.empty (asMembers (record.members value)) >>= record.finish) = _
  rw [fillAll_of_fills fills]
  exact back

theorem isPlain_toJson {record : Record α} (lawful : Lawful record names) (value : α) :
    (record.toJson value).isPlain = true := by
  have each : ∀ members : List (String × Json), (∀ member ∈ members,
      (Text.ofString member.1).isPlain = true ∧ member.2.isPlain = true) →
      membersArePlain (asMembers members) = true := by
    intro members plain
    induction members with
    | nil => rfl
    | cons member rest ih =>
      rw [List.forall_mem_cons] at plain
      exact Bool.and_eq_true_iff.mpr ⟨Bool.and_eq_true_iff.mpr plain.1, ih plain.2⟩
  exact each _ fun member inside => lawful.plain inside

end Lawful

end Json.Record

end Utxo
