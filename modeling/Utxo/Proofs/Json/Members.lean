/-
**An object gives a record what its members say, in any order and among any others.**

* `Document.isIntact_of_isWhole`: a text that is read to its end has no broken value in it. One word keeps
  the open containers intact (`next?_intact`), and so does the whole text, by induction on its words.
* `Json.valuesAt`: the values under one name. `Record.fillAll_field_eq_ok_iff`: a field takes the one value
  under its name, if there is one and not more, by induction on the members.
* `Record.ofJson_and_eq_ok_iff`: of two descriptions without a common name each reads the object as if it
  were alone, since a member of the one is skipped by the other; with `ofJson_field_eq_ok_iff` and
  `ofJson_convert_eq_ok_iff` this reads any record field by field.
* `JsonForm.Exact`: values that are read from their own form only, as the integers of a range are.
-/

import Utxo.Proofs.Json.Form

namespace Utxo

open Json (Number)

namespace Json

/-! ### A text that is read to its end -/

theorem areIntact_eq_all (elements : List Json) : areIntact elements = elements.all isIntact := by
  induction elements with
  | nil => rfl
  | cons element rest ih => rw [areIntact, List.all_cons, ih]

theorem membersAreIntact_eq_all (members : List (Text × Json)) :
    membersAreIntact members = members.all fun member => member.2.isIntact := by
  induction members with
  | nil => rfl
  | cons member rest ih => rw [membersAreIntact, memberIsIntact, List.all_cons, ih]

theorem membersAreIntact_cons_iff {member : Text × Json} {rest : List (Text × Json)} :
    membersAreIntact (member :: rest) = true ↔
      member.2.isIntact = true ∧ membersAreIntact rest = true := by
  rw [membersAreIntact, memberIsIntact, Bool.and_eq_true]

/-- An array is closed in the order of the text. -/
theorem isIntact_reverse_array (elements : List Json) :
    isIntact (.array elements.reverse) = areIntact elements := by
  rw [isIntact, areIntact_eq_all, areIntact_eq_all, List.all_reverse]

theorem isIntact_reverse_object (members : List (Text × Json)) :
    isIntact (.object members.reverse) = membersAreIntact members := by
  rw [isIntact, membersAreIntact_eq_all, membersAreIntact_eq_all, List.all_reverse]

/-- Whether nothing before the open place is broken. -/
def Frame.isIntact : Frame → Bool
  | .array before => areIntact before
  | .object before _ => membersAreIntact before

/-- Whether nothing that was just read is broken. -/
def Expectation.isIntact : Expectation → Bool
  | .key before => membersAreIntact before
  | .colon before _ => membersAreIntact before
  | .afterValue json => json.isIntact
  | _ => true

/-- **Nothing is broken yet.** -/
structure Intact (frames : List Frame) (expectation : Expectation) : Prop where
  frames : ∀ frame ∈ frames, frame.isIntact = true
  expectation : expectation.isIntact = true

variable {frames after : List Frame} {expectation next : Expectation} {token : Token}

/-- A value starts with nothing broken. -/
theorem startValue?_intact (intact : ∀ frame ∈ frames, frame.isIntact = true)
    (started : startValue? frames token = some (next, after)) : Intact after next := by
  cases token <;> cases started <;> exact ⟨intact, rfl⟩

/-- **A word that may stand where it does breaks nothing.** -/
theorem next?_intact (intact : Intact frames expectation)
    (passed : next? frames expectation token = some (next, after)) : Intact after next := by
  obtain ⟨inside, here⟩ := intact
  unfold next? at passed
  split at passed
  -- a value starts, at once or as the first element, or an empty container is closed
  case h_1 => exact startValue?_intact inside passed
  case h_2 =>
    cases passed
    exact ⟨inside, rfl⟩
  case h_3 => exact startValue?_intact (List.forall_mem_cons.mpr ⟨rfl, inside⟩) passed
  case h_4 =>
    cases passed
    exact ⟨inside, rfl⟩
  -- a key takes along the members before it, and its colon puts them back on the stack
  case h_5 =>
    cases passed
    exact ⟨inside, rfl⟩
  case h_6 =>
    cases passed
    exact ⟨inside, here⟩
  case h_7 =>
    cases passed
    exact ⟨List.forall_mem_cons.mpr ⟨here, inside⟩, rfl⟩
  -- a comma or a closing bracket puts the value that was read into its container
  case h_8 =>
    split at passed
    next =>
      cases passed
      obtain ⟨before, outside⟩ := List.forall_mem_cons.mp inside
      have grown := Bool.and_eq_true_iff.mpr ⟨here, before⟩
      exact ⟨List.forall_mem_cons.mpr ⟨grown, outside⟩, rfl⟩
    next =>
      cases passed
      obtain ⟨before, outside⟩ := List.forall_mem_cons.mp inside
      exact ⟨outside, Bool.and_eq_true_iff.mpr ⟨here, before⟩⟩
    next => cases passed
  case h_9 =>
    split at passed
    next =>
      cases passed
      obtain ⟨before, outside⟩ := List.forall_mem_cons.mp inside
      have grown := Bool.and_eq_true_iff.mpr ⟨here, before⟩
      exact ⟨outside, (isIntact_reverse_array _).trans grown⟩
    next => cases passed
  case h_10 =>
    split at passed
    next =>
      cases passed
      obtain ⟨before, outside⟩ := List.forall_mem_cons.mp inside
      have grown := Bool.and_eq_true_iff.mpr ⟨here, before⟩
      exact ⟨outside, (isIntact_reverse_object _).trans grown⟩
    next => cases passed
  case h_11 => cases passed

/-- What breaks off is not whole. -/
theorem isWhole_abandon (frames : List Frame) (expectation : Expectation) :
    (abandon frames expectation).isWhole = false := by
  cases expectation with
  | afterValue value =>
    cases frames with
    | nil => rfl
    | cons frame outer => cases frame <;> rfl
  | _ => rfl

/-- **Words that are read to their end give an intact value.** -/
theorem isIntact_build {words : List Token} (intact : Intact frames expectation)
    (whole : (build frames expectation words).isWhole = true) :
    (build frames expectation words).value.isIntact = true := by
  induction words generalizing frames expectation with
  | nil =>
    unfold build at whole ⊢
    split at whole
    next value => exact intact.expectation
    next => cases (isWhole_abandon _ _).symm.trans whole
  | cons token rest ih =>
    unfold build at whole ⊢
    cases passed : next? frames expectation token with
    | none =>
      rw [passed] at whole
      cases (isWhole_abandon _ _).symm.trans whole
    | some state =>
      simp only [passed] at whole ⊢
      exact ih (next?_intact intact passed) whole

/-- **A text that is read to its end has no broken value in it.** -/
theorem Document.isIntact_of_isWhole {text : String} (whole : (ofString text).isWhole = true) :
    (ofString text).value.isIntact = true :=
  isIntact_build ⟨List.forall_mem_nil _, rfl⟩ whole

/-! ### The members of one name -/

/-- Whether all keys are texts. -/
def KeysAreText (members : List (Text × Json)) : Prop :=
  ∀ member ∈ members, ∃ name, member.1.toString? = some name

/-- The values under one name, in the order of the text. -/
def valuesAt (name : String) (members : List (Text × Json)) : List Json :=
  (members.filter fun member => member.1.toString? = some name).map Prod.snd

variable {name : String} {member : Text × Json}

theorem valuesAt_cons (name : String) (member : Text × Json) (rest : List (Text × Json)) :
    valuesAt name (member :: rest) = valuesAt name [member] ++ valuesAt name rest := by
  unfold valuesAt
  rw [← List.map_append, ← List.filter_append]
  rfl

theorem valuesAt_of_eq (named : member.1.toString? = some name) : valuesAt name [member] = [member.2] := by
  simp [valuesAt, named]

theorem valuesAt_of_ne (apart : member.1.toString? ≠ some name) : valuesAt name [member] = [] := by
  simp [valuesAt, apart]

namespace Record

variable {α β : Type}

/-! ### A single field -/

/-- What stands in a slot, or comes before the rest of it, is one value at most. -/
theorem exists_slot_of_append {slot : Option α} {front back : List (Except Fault α)}
    (given : front ++ back = slot.toList.map Except.ok) :
    ∃ between : Option α, front = between.toList.map Except.ok := by
  cases front with
  | nil => exact ⟨none, rfl⟩
  | cons head tail =>
    cases slot with
    | none => cases given
    | some value =>
      obtain ⟨rfl, behind⟩ := List.cons.inj given
      obtain ⟨rfl, -⟩ := List.append_eq_nil_iff.mp behind
      exact ⟨some value, rfl⟩

section Field

variable [JsonForm α] {default? : Option α} {slot after : Option α}

/-- **What a field does with one member**: what its slot held, and what the member says under its name, is
what its slot holds then. -/
theorem takes_field_iff (intact : member.2.isIntact = true) :
    Takes (field name default?) slot member after ↔ (∃ key, member.1.toString? = some key) ∧
      slot.toList.map Except.ok ++ (valuesAt name [member]).map JsonForm.ofJson =
        after.toList.map Except.ok := by
  constructor
  · intro ⟨key, named, taken⟩
    refine ⟨⟨key, named⟩, ?_⟩
    by_cases same : key = name
    · subst same
      rw [valuesAt_of_eq named]
      cases slot with
      | some value =>
        rw [fill_field_of_some] at taken
        rcases taken with read | ⟨foreign, -⟩
        · cases read
        · cases foreign
      | none =>
        rw [fill_field] at taken
        rcases taken with read | ⟨foreign, -⟩
        · obtain ⟨value, held, rfl⟩ := exceptMap_eq_ok_iff.mp (Option.some.inj read)
          exact congrArg ([·]) held
        · cases foreign
    · rw [valuesAt_of_ne (by simpa [named] using same)]
      rw [fill_field_of_ne same] at taken
      rcases taken with read | ⟨-, -, rfl⟩
      · cases read
      · exact List.append_nil _
  · intro ⟨⟨key, named⟩, given⟩
    refine ⟨key, named, ?_⟩
    by_cases same : key = name
    · subst same
      rw [valuesAt_of_eq named] at given
      cases slot with
      -- a second value has no room in the slot
      | some value => cases after <;> simp at given
      | none =>
        cases after with
        | none => cases given
        | some value =>
          have held : JsonForm.ofJson member.2 = .ok value := (List.cons.inj given).1
          rw [fill_field, held]
          exact Or.inl rfl
    · rw [valuesAt_of_ne (by simpa [named] using same)] at given
      have kept : after = slot := by
        cases slot <;> cases after <;> simp_all
      exact Or.inr ⟨fill_field_of_ne same, intact, kept⟩

/-- **A field takes what stands under its name**: all of it, and its slot has room for one value. -/
theorem fillAll_field_eq_ok_iff {members : List (Text × Json)} (intact : membersAreIntact members = true) :
    (field name default?).fillAll slot members = .ok after ↔ KeysAreText members ∧
      slot.toList.map Except.ok ++ (valuesAt name members).map JsonForm.ofJson =
        after.toList.map Except.ok := by
  induction members generalizing slot with
  | nil =>
    show Except.ok slot = .ok after ↔ _
    cases slot <;> cases after <;> simp [KeysAreText, valuesAt]
  | cons member rest ih =>
    obtain ⟨here, there⟩ := membersAreIntact_cons_iff.mp intact
    refine fillAll_cons_eq_ok_iff.trans ?_
    rw [valuesAt_cons, List.map_append, ← List.append_assoc]
    constructor
    · intro ⟨between, takes, read⟩
      obtain ⟨text, first⟩ := (takes_field_iff here).mp takes
      obtain ⟨texts, others⟩ := (ih there).mp read
      refine ⟨List.forall_mem_cons.mpr ⟨text, texts⟩, ?_⟩
      rw [first, others]
    · intro ⟨texts, given⟩
      obtain ⟨text, texts⟩ := List.forall_mem_cons.mp texts
      obtain ⟨between, first⟩ := exists_slot_of_append given
      rw [first] at given
      exact ⟨between, (takes_field_iff here).mpr ⟨text, first⟩, (ih there).mpr ⟨texts, given⟩⟩

/-- **A field is read from what stands under its name**, or it has its default. -/
theorem ofJson_field_eq_ok_iff {members : List (Text × Json)} (intact : membersAreIntact members = true)
    {value : α} : (field name default?).ofJson (.object members) = .ok value ↔ KeysAreText members ∧
      ∃ given : Option α, (valuesAt name members).map JsonForm.ofJson = given.toList.map Except.ok ∧
        given.or default? = some value := by
  have finished : ∀ given : Option α,
      (field name default?).finish given = .ok value ↔ given.or default? = some value := by
    intro given
    cases given with
    | some held => simp [field]
    | none => cases default? <;> simp [field, orDefault]
  refine exceptBind_eq_ok_iff.trans ?_
  constructor
  · intro ⟨given, read, held⟩
    obtain ⟨texts, given⟩ := (fillAll_field_eq_ok_iff intact).mp read
    exact ⟨texts, _, given, (finished _).mp held⟩
  · intro ⟨texts, given, read, held⟩
    exact ⟨given, (fillAll_field_eq_ok_iff intact).mpr ⟨texts, read⟩, (finished given).mpr held⟩

end Field

/-! ### Descriptions that are put together -/

/-- **No name is read by both descriptions.** -/
def Apart (first : Record α) (second : Record β) : Prop :=
  ∀ name, (∀ slots json, first.fill slots name json = none) ∨
    ∀ slots json, second.fill slots name json = none

theorem Lawful.apart {first : Record α} {second : Record β} {names others : List String}
    (left : Lawful first names) (right : Lawful second others)
    (disjoint : ∀ name ∈ others, name ∉ names) : Apart first second := by
  intro name
  by_cases member : name ∈ others
  · exact Or.inl fun _ _ => left.foreign (disjoint name member)
  · exact Or.inr fun _ _ => right.foreign member

section Parts

variable {first : Record α} {second : Record β}

/-- **A member that one of the descriptions reads is skipped by the other.** -/
theorem takes_and_iff (apart : Apart first second) (intact : member.2.isIntact = true)
    {left leftAfter : first.Slots} {right rightAfter : second.Slots} :
    Takes (first.and second) (left, right) member (leftAfter, rightAfter) ↔
      Takes first left member leftAfter ∧ Takes second right member rightAfter := by
  constructor
  · intro ⟨name, named, taken⟩
    cases front : first.fill left name member.2 with
    | some outcome =>
      have foreign : second.fill right name member.2 = none := by
        rcases apart name with unread | unread
        · cases (unread left member.2).symm.trans front
        · exact unread right member.2
      rw [fill_and_of_some front] at taken
      rcases taken with read | ⟨skipped, -⟩
      · obtain ⟨filled, rfl, same⟩ := exceptMap_eq_ok_iff.mp (Option.some.inj read)
        cases same
        exact ⟨⟨name, named, Or.inl front⟩, name, named, Or.inr ⟨foreign, intact, rfl⟩⟩
      · cases skipped
    | none =>
      rw [fill_and_of_none front] at taken
      rcases taken with read | ⟨skipped, -, same⟩
      · obtain ⟨outcome, back, read⟩ := Option.map_eq_some_iff.mp read
        obtain ⟨filled, rfl, same⟩ := exceptMap_eq_ok_iff.mp read
        cases same
        exact ⟨⟨name, named, Or.inr ⟨front, intact, rfl⟩⟩, name, named, Or.inl back⟩
      · cases same
        exact ⟨⟨name, named, Or.inr ⟨front, intact, rfl⟩⟩, name, named,
          Or.inr ⟨Option.map_eq_none_iff.mp skipped, intact, rfl⟩⟩
  · intro ⟨⟨name, named, leftTaken⟩, other, otherNamed, rightTaken⟩
    obtain rfl := Option.some.inj (named.symm.trans otherNamed)
    refine ⟨name, named, ?_⟩
    rcases leftTaken with front | ⟨front, -, rfl⟩
    · rcases rightTaken with back | ⟨-, -, rfl⟩
      · rcases apart name with unread | unread
        · cases (unread left member.2).symm.trans front
        · cases (unread right member.2).symm.trans back
      · exact Or.inl (fill_and_of_some front)
    · rcases rightTaken with back | ⟨back, -, rfl⟩
      · exact Or.inl ((fill_and_of_none front).trans (by rw [back]; rfl))
      · exact Or.inr ⟨(fill_and_of_none front).trans (by rw [back]; rfl), intact, rfl⟩

/-- **Members are read by each of the descriptions as if it were alone.** -/
theorem fillAll_and_eq_ok_iff (apart : Apart first second) {members : List (Text × Json)}
    (intact : membersAreIntact members = true) {left leftAfter : first.Slots}
    {right rightAfter : second.Slots} :
    (first.and second).fillAll (left, right) members = .ok (leftAfter, rightAfter) ↔
      first.fillAll left members = .ok leftAfter ∧ second.fillAll right members = .ok rightAfter := by
  induction members generalizing left right with
  | nil =>
    show Except.ok (left, right) = .ok (leftAfter, rightAfter) ↔
      Except.ok left = .ok leftAfter ∧ Except.ok right = .ok rightAfter
    simp only [Except.ok.injEq, Prod.mk.injEq]
  | cons member rest ih =>
    obtain ⟨here, there⟩ := membersAreIntact_cons_iff.mp intact
    refine fillAll_cons_eq_ok_iff.trans ?_
    rw [fillAll_cons_eq_ok_iff, fillAll_cons_eq_ok_iff]
    constructor
    · intro ⟨between, takes, read⟩
      obtain ⟨leftTakes, rightTakes⟩ := (takes_and_iff apart here).mp takes
      obtain ⟨leftRead, rightRead⟩ := (ih there).mp read
      exact ⟨⟨_, leftTakes, leftRead⟩, _, rightTakes, rightRead⟩
    · intro ⟨⟨leftBetween, leftTakes, leftRead⟩, rightBetween, rightTakes, rightRead⟩
      exact ⟨(leftBetween, rightBetween), (takes_and_iff apart here).mpr ⟨leftTakes, rightTakes⟩,
        (ih there).mpr ⟨leftRead, rightRead⟩⟩

/-- **An object is read as both records if it is read as each of them.** -/
theorem ofJson_and_eq_ok_iff (apart : Apart first second) {members : List (Text × Json)}
    (intact : membersAreIntact members = true) {value : α × β} :
    (first.and second).ofJson (.object members) = .ok value ↔
      first.ofJson (.object members) = .ok value.1 ∧ second.ofJson (.object members) = .ok value.2 := by
  unfold ofJson
  simp only [exceptBind_eq_ok_iff]
  constructor
  · intro ⟨slots, read, finished⟩
    obtain ⟨leftRead, rightRead⟩ := (fillAll_and_eq_ok_iff apart intact).mp read
    obtain ⟨left, leftFinished, finished⟩ := exceptBind_eq_ok_iff.mp finished
    obtain ⟨right, rightFinished, same⟩ := exceptBind_eq_ok_iff.mp finished
    cases same
    exact ⟨⟨_, leftRead, leftFinished⟩, _, rightRead, rightFinished⟩
  · intro ⟨⟨left, leftRead, leftFinished⟩, right, rightRead, rightFinished⟩
    refine ⟨(left, right), (fillAll_and_eq_ok_iff apart intact).mpr ⟨leftRead, rightRead⟩, ?_⟩
    exact exceptBind_eq_ok_iff.mpr ⟨_, leftFinished, exceptBind_eq_ok_iff.mpr ⟨_, rightFinished, rfl⟩⟩

theorem fillAll_convert_eq_ok_iff {record : Record α} {make : α → β} {view : β → α}
    {members : List (Text × Json)} {slots after : record.Slots} :
    (record.convert make view).fillAll slots members = .ok after ↔
      record.fillAll slots members = .ok after := by
  induction members generalizing slots with
  | nil => exact Iff.rfl
  | cons member rest ih =>
    -- a member means the same to both, which have the same slots
    have members : (∃ between, Takes (record.convert make view) slots member between ∧
        (record.convert make view).fillAll between rest = .ok after) ↔
        ∃ between, Takes record slots member between ∧ record.fillAll between rest = .ok after :=
      exists_congr fun _ => and_congr_right fun _ => ih
    exact fillAll_cons_eq_ok_iff.trans (members.trans fillAll_cons_eq_ok_iff.symm)

/-- **The same fields are read for another type.** -/
theorem ofJson_convert_eq_ok_iff {record : Record α} {make : α → β} {view : β → α}
    {members : List (Text × Json)} {value : β} :
    (record.convert make view).ofJson (.object members) = .ok value ↔
      ∃ parts, record.ofJson (.object members) = .ok parts ∧ make parts = value := by
  unfold ofJson
  simp only [exceptBind_eq_ok_iff]
  constructor
  · intro ⟨slots, read, finished⟩
    obtain ⟨parts, finished, same⟩ := exceptMap_eq_ok_iff.mp finished
    exact ⟨parts, ⟨slots, fillAll_convert_eq_ok_iff.mp read, finished⟩, same⟩
  · intro ⟨parts, ⟨slots, read, finished⟩, same⟩
    exact ⟨slots, fillAll_convert_eq_ok_iff.mpr read, exceptMap_eq_ok_iff.mpr ⟨parts, finished, same⟩⟩

end Parts

end Record

/-! ### Values that have one form -/

/-- Of the numbers only its own denotes an integer. -/
theorem Number.integer?_eq_some_iff {number : Number} {value : Int} :
    number.integer? = some value ↔ number = .ofInt value := by
  constructor
  · intro denotes
    obtain ⟨negative, whole, fraction, exponent⟩ := number
    unfold integer? at denotes
    split at denotes
    next noFraction noExponent =>
      dsimp only at noFraction noExponent denotes
      subst noFraction noExponent
      split at denotes
      next signed =>
        split at denotes
        next => cases denotes
        next nonzero =>
          cases denotes
          simp [ofInt, signed]
          omega
      next unsigned =>
        cases denotes
        simp [ofInt, unsigned]
    next => cases denotes
  · intro same
    rw [same, integer?_ofInt]

end Json

namespace JsonForm

/-- **Values that are read from their own form only.** -/
def Exact (α : Type) [JsonForm α] : Prop :=
  ∀ (json : Json) (value : α), ofJson json = .ok value ↔ json = toJson value

theorem integerBetween_eq_ok_iff {least greatest value : Int} {json : Json} :
    integerBetween least greatest json = .ok value ↔
      json = ofInt value ∧ least ≤ value ∧ value ≤ greatest := by
  constructor
  · intro read
    unfold integerBetween at read
    split at read
    next number =>
      split at read
      next other denotes =>
        split at read
        next within =>
          cases read
          exact ⟨congrArg Json.number (Number.integer?_eq_some_iff.mp denotes), within⟩
        next => cases read
      next => cases read
    next => cases read
  · intro ⟨same, atLeast, atMost⟩
    rw [same, integerBetween_ofInt atLeast atMost]

/-- Numbers below a bound that stand for the values of a type. -/
theorem ofJson_unsigned_eq_ok_iff {β : Type} {bound : Nat} {make : Nat → β} {view : β → Nat}
    (small : ∀ value, view value < bound) (made : ∀ value, make (view value) = value)
    (viewed : ∀ {number}, number < bound → view (make number) = number) {json : Json} {value : β} :
    (fun number : Int => make number.toNat) <$> integerBetween 0 (bound - 1) json = .ok value ↔
      json = ofInt (view value) := by
  constructor
  · intro read
    obtain ⟨number, between, rfl⟩ := exceptMap_eq_ok_iff.mp read
    obtain ⟨rfl, atLeast, atMost⟩ := integerBetween_eq_ok_iff.mp between
    have below : number.toNat < bound := by omega
    rw [viewed below, Int.toNat_of_nonneg atLeast]
  · intro same
    rw [same, ofJson_unsigned (small value), made]

theorem exact_uint8 : Exact UInt8 := fun _ _ =>
  ofJson_unsigned_eq_ok_iff UInt8.toNat_lt (fun _ => UInt8.ofNat_toNat) UInt8.toNat_ofNat_of_lt'

theorem exact_uint64 : Exact UInt64 := fun _ _ =>
  ofJson_unsigned_eq_ok_iff UInt64.toNat_lt (fun _ => UInt64.ofNat_toNat) UInt64.toNat_ofNat_of_lt'

/-- Elements are read as these values if they are the forms of these values. -/
theorem Exact.map_ofJson_eq_iff {α : Type} [JsonForm α] (exact : Exact α) {elements : List Json}
    {values : List α} : elements.map ofJson = values.map Except.ok ↔ elements = values.map toJson := by
  induction elements generalizing values with
  | nil => cases values <;> simp
  | cons element rest ih =>
    cases values with
    | nil => simp
    | cons value others => simp only [List.map_cons, List.cons.injEq, exact element value, ih]

/-- **An optional field is read from the form of its value**, or it has its default. -/
theorem Exact.ofJson_field_eq_ok_iff {α : Type} [JsonForm α] (exact : Exact α) {name : String}
    {default value : α} {members : List (Json.Text × Json)} (intact : Json.membersAreIntact members = true) :
    (Json.Record.field name (some default)).ofJson (.object members) = .ok value ↔
      Json.KeysAreText members ∧ ∃ given : Option α,
        Json.valuesAt name members = given.toList.map toJson ∧ given.getD default = value := by
  simp only [Json.Record.ofJson_field_eq_ok_iff intact, exact.map_ofJson_eq_iff, Option.or_some,
    Option.some.injEq]

end JsonForm

end Utxo
