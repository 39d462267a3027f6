/-
**What a decoder that inverts its byte form is worth to a caller.**

For a type with a byte form, one law about its decoder (`Decoder.Inverts`) gives all that a caller of
`Wire.decodeWithLimit` and `Wire.decodeExact` can rely on:

* `Wire.Canonical`: a byte string is accepted just when it is the form of a value, so that no value
  has two accepted forms and no form begins another one;
* `Wire.ReadsBack`: every form is read back, whatever stands before it and behind it.

Both are about values that *fit*: those whose lists are short enough to be counted.
-/

import Utxo.Proofs.Wire.Inversion

namespace Utxo

/-- A reader over `bytes` that stands at `position`. -/
def Reader.within (bytes : Bytes) (position : Nat) : Reader :=
  startingAt position (bytes.drop position)

namespace Reader

/-- What a reader passes within a byte string is the part between its two positions. -/
theorem Passes.within {bytes taken : Bytes} {position : Nat} {after : Reader}
    (passes : (within bytes position).Passes taken after) :
    after = Reader.within bytes after.position ∧ after.position = position + taken.length ∧
      bytes.extract position after.position = taken := by
  obtain ⟨ahead, stands⟩ := passes
  change bytes.drop position = taken ++ after.ahead at ahead
  change after.position = position + taken.length at stands
  refine ⟨Reader.ext rfl ?_, stands, ?_⟩
  · show after.ahead = bytes.drop after.position
    rw [stands, ← List.drop_drop, ahead, List.drop_left]
  · rw [List.extract_eq_take_drop, stands, Nat.add_sub_cancel_left, ahead, List.take_left]

/-- A reader that stands before a part passes it. -/
theorem passes_within (before part behind : Bytes) :
    (within (before ++ part ++ behind) before.length).Passes part
      (within (before ++ part ++ behind) (before.length + part.length)) := by
  refine ⟨?_, rfl⟩
  show (before ++ part ++ behind).drop before.length =
    part ++ (before ++ part ++ behind).drop (before.length + part.length)
  rw [← List.drop_drop, List.append_assoc, List.drop_left, List.drop_left]

end Reader

namespace Wire

variable {α : Type} [Wire α]

/-! ### The two ways to decode a byte string -/

theorem decodeWithLimit_of_lt {bytes : Bytes} {limit : Nat} (long : limit < bytes.length) :
    decodeWithLimit (α := α) bytes limit = .error (.tooLarge bytes.length limit) :=
  if_pos long

/-- Within the limit the decoder decides. -/
theorem decodeWithLimit_of_le {bytes : Bytes} {limit : Nat} (short : bytes.length ≤ limit) :
    decodeWithLimit (α := α) bytes limit = match decoder (Reader.ofBytes bytes) with
      | .ok value after => .ok (value, after.position)
      | .error fault _ => .error fault :=
  if_neg (Nat.not_lt.mpr short)

theorem decodeWithLimit_eq_ok_iff {bytes : Bytes} {limit consumed : Nat} {value : α} :
    decodeWithLimit bytes limit = .ok (value, consumed) ↔
      bytes.length ≤ limit ∧ ∃ after, decoder (Reader.ofBytes bytes) = .ok value after ∧
        after.position = consumed := by
  by_cases short : bytes.length ≤ limit
  · rw [decodeWithLimit_of_le short]
    cases (decoder : Decoder α) (Reader.ofBytes bytes) with
    | ok other after =>
      constructor
      · intro read
        cases read
        exact ⟨short, after, rfl, rfl⟩
      · rintro ⟨_, _, same, rfl⟩
        cases same
        rfl
    | error fault after => simp
  · rw [decodeWithLimit_of_lt (Nat.not_le.mp short)]
    simp [short]

theorem decodeWithLimit_of_ok {bytes : Bytes} {limit : Nat} {value : α} {after : Reader}
    (short : bytes.length ≤ limit) (read : decoder (Reader.ofBytes bytes) = .ok value after) :
    decodeWithLimit bytes limit = .ok (value, after.position) := by
  rw [decodeWithLimit_of_le short, read]

theorem decodeWithLimit_of_error {bytes : Bytes} {limit : Nat} {fault : DecodeError} {after : Reader}
    (short : bytes.length ≤ limit)
    (failed : (decoder : Decoder α) (Reader.ofBytes bytes) = .error fault after) :
    decodeWithLimit (α := α) bytes limit = .error fault := by
  rw [decodeWithLimit_of_le short, failed]

/-- Behind a value that was decoded, nothing may be left. -/
theorem decodeExact_of_ok {bytes : Bytes} {limit consumed : Nat} {value : α}
    (read : decodeWithLimit bytes limit = .ok (value, consumed)) :
    decodeExact bytes limit = if consumed = bytes.length then .ok value
      else .error (.trailing (bytes.length - consumed)) := by
  rw [decodeExact, read]
  by_cases whole : consumed = bytes.length
  · rw [if_pos whole]
    exact if_neg (not_not_intro whole)
  · rw [if_neg whole]
    exact if_pos whole

/-- A value that spans the byte string is what all of it encodes. -/
theorem decodeExact_of_whole {bytes : Bytes} {limit : Nat} {value : α} {after : Reader}
    (short : bytes.length ≤ limit) (read : decoder (Reader.ofBytes bytes) = .ok value after)
    (whole : after.position = bytes.length) : decodeExact bytes limit = .ok value := by
  rw [decodeExact_of_ok (decodeWithLimit_of_ok short read), if_pos whole]

theorem decodeExact_of_error {bytes : Bytes} {limit : Nat} {fault : DecodeError}
    (read : decodeWithLimit (α := α) bytes limit = .error fault) :
    decodeExact (α := α) bytes limit = .error fault := by
  rw [decodeExact, read]
  rfl

/-! ### Forms and values -/

variable {fits : α → Prop}

/-- **All of a byte string is accepted just when it is a form.** -/
theorem decodeExact_eq_ok_iff (inverts : (decoder : Decoder α).Inverts encode fits) {bytes : Bytes}
    {limit : Nat} {value : α} :
    decodeExact bytes limit = .ok value ↔
      fits value ∧ bytes.length ≤ limit ∧ bytes = encode value := by
  constructor
  · intro accepted
    cases read : decodeWithLimit (α := α) bytes limit with
    | error fault =>
      rw [decodeExact_of_error read] at accepted
      cases accepted
    | ok result =>
      obtain ⟨other, consumed⟩ := result
      rw [decodeExact_of_ok read] at accepted
      split at accepted
      next whole =>
        cases accepted
        obtain ⟨short, after, decoded, stands⟩ := decodeWithLimit_eq_ok_iff.mp read
        obtain ⟨fit, passes⟩ := inverts.iff.mp decoded
        obtain ⟨-, -, taken⟩ := Reader.Passes.within passes
        rw [stands, whole] at taken
        exact ⟨fit, short, by simpa using taken⟩
      next => cases accepted
  · rintro ⟨fit, short, rfl⟩
    have passes := Reader.passes_within [] (encode value) []
    rw [List.append_nil] at passes
    have read := decodeWithLimit_eq_ok_iff.mpr ⟨short, _, inverts.iff.mpr ⟨fit, passes⟩, rfl⟩
    rw [decodeExact_of_ok read]
    exact if_pos (Nat.zero_add _)

/-- **A form is read from wherever it stands.** -/
theorem decoder_within (inverts : (decoder : Decoder α).Inverts encode fits) {value : α}
    (fit : fits value) (before behind : Bytes) :
    decoder (Reader.within (before ++ encode value ++ behind) before.length) =
      .ok value (Reader.within (before ++ encode value ++ behind)
        (before.length + (encode value).length)) :=
  inverts.iff.mpr ⟨fit, Reader.passes_within before (encode value) behind⟩

theorem decodeWithLimit_encode (inverts : (decoder : Decoder α).Inverts encode fits) {value : α}
    (fit : fits value) {behind : Bytes} {limit : Nat}
    (short : (encode value ++ behind).length ≤ limit) :
    decodeWithLimit (encode value ++ behind) limit = .ok (value, (encode value).length) := by
  have read := decoder_within inverts fit [] behind
  exact decodeWithLimit_eq_ok_iff.mpr ⟨short, _, read, Nat.zero_add _⟩

/-- Forms that stand before the same bytes, however they go on, are of one value. -/
theorem eq_of_encode_append_eq (inverts : (decoder : Decoder α).Inverts encode fits)
    {first second : α} (firstFit : fits first) (secondFit : fits second) {behind other : Bytes}
    (same : encode first ++ behind = encode second ++ other) : first = second := by
  have read := decoder_within inverts firstFit [] behind
  have again := decoder_within inverts secondFit [] other
  rw [List.nil_append] at read again
  rw [same, again] at read
  cases read
  rfl

/-- A form is of one value. -/
theorem eq_of_encode_eq (inverts : (decoder : Decoder α).Inverts encode fits) {first second : α}
    (firstFit : fits first) (secondFit : fits second) (same : encode first = encode second) :
    first = second :=
  eq_of_encode_append_eq inverts firstFit secondFit (congrArg (· ++ []) same)

/-- Forms, one by one, are of one list of values. -/
theorem eq_of_map_encode_eq (inverts : (decoder : Decoder α).Inverts encode fits)
    {first second : List α} (firstFit : ∀ value ∈ first, fits value)
    (secondFit : ∀ value ∈ second, fits value) (same : first.map encode = second.map encode) :
    first = second := by
  induction first generalizing second with
  | nil => exact (List.map_eq_nil_iff.mp same.symm).symm
  | cons value rest ih =>
    obtain ⟨other, others, rfl, head, tail⟩ := List.map_eq_cons_iff.mp same.symm
    rw [List.forall_mem_cons] at firstFit secondFit
    rw [eq_of_encode_eq inverts firstFit.1 secondFit.1 head.symm,
      ih firstFit.2 secondFit.2 tail.symm]

/-! ### Canonical forms, and forms that are read back -/

/-- **What is accepted is a form.** -/
structure Canonical (α : Type) [Wire α] (fits : α → Prop) : Prop where
  /-- A read takes the form of the value that it yields, wherever it starts. -/
  taken : ∀ {bytes : Bytes} {position : Nat} {value : α} {after : Reader},
    decoder (Reader.within bytes position) = .ok value after →
      after = Reader.within bytes after.position ∧
        after.position = position + (encode value).length ∧
        bytes.extract position after.position = encode value
  /-- All of a byte string is accepted just when it is within the limit and a form. -/
  accepted : ∀ {bytes : Bytes} {limit : Nat} {value : α},
    decodeExact bytes limit = .ok value ↔
      fits value ∧ bytes.length ≤ limit ∧ bytes = encode value
  /-- No value has two accepted forms. -/
  unique : ∀ {first second : Bytes} {firstLimit secondLimit : Nat} {value : α},
    decodeExact first firstLimit = .ok value → decodeExact second secondLimit = .ok value →
      first = second
  /-- No form begins the form of another value. -/
  prefixFree : ∀ {first second : α}, fits first → fits second →
    encode first <+: encode second → first = second

/-- **Every form is read back.** -/
structure ReadsBack (α : Type) [Wire α] (fits : α → Prop) : Prop where
  /-- Whatever stands before a form and behind it, a reader before it reads it and no more. -/
  anywhere : ∀ {value : α}, fits value → ∀ before behind : Bytes,
    decoder (Reader.within (before ++ encode value ++ behind) before.length) =
      .ok value (Reader.within (before ++ encode value ++ behind)
        (before.length + (encode value).length))
  /-- From the front of a byte string, with the number of bytes that were taken. -/
  front : ∀ {value : α}, fits value → ∀ {behind : Bytes} {limit : Nat},
    (encode value ++ behind).length ≤ limit →
      decodeWithLimit (encode value ++ behind) limit = .ok (value, (encode value).length)
  /-- As all of a byte string. -/
  whole : ∀ {value : α}, fits value → ∀ {limit : Nat}, (encode value).length ≤ limit →
    decodeExact (encode value) limit = .ok value
  /-- With something behind it, it is not all of the byte string. -/
  trailing : ∀ {value : α}, fits value → ∀ {behind : Bytes}, behind ≠ [] → ∀ {limit : Nat},
    (encode value ++ behind).length ≤ limit →
      decodeExact (α := α) (encode value ++ behind) limit = .error (.trailing behind.length)

theorem canonical_of_inverts (inverts : (decoder : Decoder α).Inverts encode fits) :
    Canonical α fits where
  taken read := (inverts.iff.mp read).2.within
  accepted := decodeExact_eq_ok_iff inverts
  unique first second := by
    rw [((decodeExact_eq_ok_iff inverts).mp first).2.2,
      ((decodeExact_eq_ok_iff inverts).mp second).2.2]
  prefixFree firstFit secondFit begins := by
    obtain ⟨behind, same⟩ := begins
    exact eq_of_encode_append_eq inverts firstFit secondFit (same.trans (List.append_nil _).symm)

theorem readsBack_of_inverts (inverts : (decoder : Decoder α).Inverts encode fits) :
    ReadsBack α fits where
  anywhere fit before behind := decoder_within inverts fit before behind
  front fit _ _ short := decodeWithLimit_encode inverts fit short
  whole fit _ short := (decodeExact_eq_ok_iff inverts).mpr ⟨fit, short, rfl⟩
  trailing fit behind nonempty _ short := by
    have more := List.length_pos_iff.mpr nonempty
    rw [decodeExact_of_ok (decodeWithLimit_encode inverts fit short), List.length_append,
      if_neg (by omega), Nat.add_sub_cancel_left]

end Wire

end Utxo
