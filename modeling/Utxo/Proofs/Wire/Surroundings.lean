/-
**What a decoder has decided does not depend on what surrounds the bytes.**

A reader stands *amid* a longer byte string when other bytes stand before and behind its own
(`Reader.amid`). A decoder is *orderly* (`Decoder.Orderly`) if this changes no value that it yields and no
refusal, except that bytes behind may end a want of bytes; and if a want of bytes is told truly.

* `Decoder.bind_eq_error_iff`, `take_eq_error_iff`: where a read fails.
* `Decoder.exactly_of_closed`: the induction on the number of elements, for whatever is closed under
  sequences.
* `Decoder.Orderly.bind`, `exactly` and their kin: everything that is built from fixed-width reads is
  orderly.
* `Decoder.CountRefused`: why a count is refused; `count_eq_error_iff`: for nothing else.
* `CountRule.Careful`: a lawful rule that is orderly and refuses for no other reasons;
  `CountRule.Careful.list_orderly`: so are lists behind their count.
* `Decoder.FailsBy`: what a decoder can fail by; a *plain* one fails only for want of bytes. Of a list of
  plain elements, only the count can be negative (`CountRule.Careful.list_eq_negativeCount_iff`).
-/

import Utxo.Proofs.Wire.Inversion

namespace Utxo

/-! ### A reader within a longer byte string -/

namespace Reader

/-- The reader, with so many more bytes before it and others behind its own. -/
def amid (reader : Reader) (before : Nat) (behind : Bytes) : Reader :=
  startingAt (before + reader.position) (reader.ahead ++ behind)

variable {reader after : Reader} {bytes behind : Bytes} {before : Nat}

theorem remaining_amid :
    (reader.amid before behind).remaining = reader.remaining + behind.length := by
  rw [reader.remaining_eq]
  exact List.length_append

theorem remaining_amid_nil (reader : Reader) (before : Nat) :
    (reader.amid before []).remaining = reader.remaining := remaining_amid

theorem amid_nothing (reader : Reader) : reader.amid 0 [] = reader :=
  Reader.ext (Nat.zero_add _) (List.append_nil _)

theorem amid_amid (reader : Reader) (first second : Bytes) :
    (reader.amid 0 first).amid 0 second = reader.amid 0 (first ++ second) :=
  Reader.ext (Nat.zero_add _) (List.append_assoc ..)

theorem Passes.amid (passes : reader.Passes bytes after) (before : Nat) (behind : Bytes) :
    (reader.amid before behind).Passes bytes (after.amid before behind) := by
  obtain ⟨ahead, position⟩ := passes
  refine ⟨?_, ?_⟩
  · show reader.ahead ++ behind = bytes ++ (after.ahead ++ behind)
    rw [ahead, List.append_assoc]
  · show before + after.position = before + reader.position + bytes.length
    rw [position, Nat.add_assoc]

end Reader

/-- Bytes are missing. -/
def DecodeError.IsTruncated (fault : DecodeError) : Prop :=
  ∃ needed remaining, fault = .truncated needed remaining

/-- Bytes are missing, or a count is negative. -/
def DecodeError.IsOfReads (fault : DecodeError) : Prop :=
  fault.IsTruncated ∨ ∃ count, fault = .negativeCount count

namespace Decoder

variable {α β : Type} {reader after : Reader} {fault : DecodeError}

/-! ### Reads that fail -/

theorem pure_ne_error (value : α) : (pure value : Decoder α) reader ≠ .error fault after := by
  rintro ⟨⟩

/-- Behind a value that was read, the rest decides. -/
theorem bind_of_ok {first : Decoder α} {next : α → Decoder β} {value : α}
    (read : first reader = .ok value after) : (first >>= next) reader = next value after := by
  change EStateM.bind first next reader = _
  rw [EStateM.bind, read]

/-- A sequence fails where its first part does, or behind it where the second does. -/
theorem bind_eq_error_iff {first : Decoder α} {next : α → Decoder β} :
    (first >>= next) reader = .error fault after ↔
      first reader = .error fault after ∨ ∃ value between, first reader = .ok value between ∧
        next value between = .error fault after := by
  change EStateM.bind first next reader = _ ↔ _
  unfold EStateM.bind
  cases first reader with
  | ok value between =>
    constructor
    · exact fun failed => Or.inr ⟨value, between, rfl, failed⟩
    · rintro (⟨⟨⟩⟩ | ⟨_, _, same, failed⟩)
      cases same
      exact failed
  | error other between => simp

theorem map_eq_error_iff {first : Decoder α} {f : α → β} :
    (f <$> first) reader = .error fault after ↔ first reader = .error fault after := by
  rw [map_eq_pure_bind, bind_eq_error_iff]
  constructor
  · rintro (failed | ⟨_, _, _, failed⟩)
    · exact failed
    · exact absurd failed (pure_ne_error _)
  · exact Or.inl

/-- Taking bytes fails when there are too few, and takes none. -/
theorem take_eq_error_iff {needed : Nat} :
    take needed reader = .error fault after ↔
      reader.remaining < needed ∧ fault = .truncated needed reader.remaining ∧ after = reader := by
  unfold take
  split
  next enough => simp [Nat.not_lt.mpr enough]
  next short =>
    rw [EStateM.Result.error.injEq]
    constructor
    · rintro ⟨rfl, rfl⟩
      exact ⟨Nat.not_le.mp short, rfl, rfl⟩
    · rintro ⟨_, rfl, rfl⟩
      exact ⟨rfl, rfl⟩

/-! ### Elements as a sequence of reads -/

theorem repeatOnto_succ (element : Decoder α) (number : Nat) (done : List α) :
    repeatOnto element (number + 1) done =
      element >>= fun value => repeatOnto element number (value :: done) := by
  funext reader
  rw [repeatOnto]
  change _ = EStateM.bind element _ reader
  unfold EStateM.bind
  cases element reader <;> rfl

/-- **A property of reading nothing, which every continuation hands on to an element before it, is one of
reading so many elements**: by induction on their number. -/
theorem exactly_of_closed {element : Decoder α} (closed : Decoder (List α) → Prop)
    (nothing : ∀ values, closed (pure values))
    (more : ∀ next : α → Decoder (List α), (∀ value, closed (next value)) → closed (element >>= next))
    (number : Nat) : closed (exactly number element) := by
  have onto : ∀ done, closed (repeatOnto element number done) := by
    induction number with
    | zero => exact fun done => nothing done.reverse
    | succ number ih =>
      intro done
      rw [repeatOnto_succ]
      exact more _ fun value => ih (value :: done)
  exact onto []

/-! ### Orderly decoders -/

/-- **Surroundings change nothing that was decided**, and a want of bytes is told truly. -/
structure Orderly (decoder : Decoder α) : Prop where
  /-- What is read is read amid any other bytes. -/
  ok_amid : ∀ {reader after : Reader} {value : α}, decoder reader = .ok value after →
    ∀ before behind, decoder (reader.amid before behind) = .ok value (after.amid before behind)
  /-- What is refused is refused amid any other bytes, unless these may be the ones that were missing. -/
  error_amid : ∀ {reader after : Reader} {fault : DecodeError}, decoder reader = .error fault after →
    ∀ before behind, (fault.IsTruncated → behind = []) →
      decoder (reader.amid before behind) = .error fault (after.amid before behind)
  /-- No byte is put back. -/
  remaining_le : ∀ {reader after : Reader} {value : α}, decoder reader = .ok value after →
    after.remaining ≤ reader.remaining
  /-- What remains is what lies ahead, and it is less than what is needed. -/
  truthful : ∀ {reader after : Reader} {needed remaining : Nat},
    decoder reader = .error (.truncated needed remaining) after →
      remaining = after.remaining ∧ (reader.remaining < maxLength → remaining < needed)

namespace Orderly

protected theorem pure (value : α) : Orderly (pure value) where
  ok_amid read before behind := by
    obtain ⟨rfl, rfl⟩ := pure_eq_ok_iff.mp read
    rfl
  error_amid failed := absurd failed (pure_ne_error _)
  remaining_le read := by
    obtain ⟨-, rfl⟩ := pure_eq_ok_iff.mp read
    exact Nat.le_refl _
  truthful failed := absurd failed (pure_ne_error _)

/-- A fault other than a want of bytes is the same everywhere. -/
protected theorem throw (other : ¬ fault.IsTruncated) : Orderly (throw fault : Decoder α) where
  ok_amid := by rintro _ _ _ ⟨⟩
  error_amid := by
    rintro _ _ _ ⟨⟩ before behind -
    rfl
  remaining_le := by rintro _ _ _ ⟨⟩
  truthful := by
    rintro _ _ needed remaining ⟨⟩
    exact absurd ⟨needed, remaining, rfl⟩ other

protected theorem bind {first : Decoder α} {next : α → Decoder β} (head : first.Orderly)
    (tail : ∀ value, (next value).Orderly) : (first >>= next).Orderly where
  ok_amid read before behind := by
    obtain ⟨value, between, front, back⟩ := bind_eq_ok_iff.mp read
    exact bind_eq_ok_iff.mpr ⟨value, _, head.ok_amid front before behind,
      (tail value).ok_amid back before behind⟩
  error_amid failed before behind complete := by
    rw [bind_eq_error_iff] at failed ⊢
    rcases failed with front | ⟨value, between, front, back⟩
    · exact Or.inl (head.error_amid front before behind complete)
    · exact Or.inr ⟨value, _, head.ok_amid front before behind,
        (tail value).error_amid back before behind complete⟩
  remaining_le read := by
    obtain ⟨value, between, front, back⟩ := bind_eq_ok_iff.mp read
    exact Nat.le_trans ((tail value).remaining_le back) (head.remaining_le front)
  truthful failed := by
    rcases bind_eq_error_iff.mp failed with front | ⟨value, between, front, back⟩
    · exact head.truthful front
    · obtain ⟨same, short⟩ := (tail value).truthful back
      exact ⟨same, fun named => short (Nat.lt_of_le_of_lt (head.remaining_le front) named)⟩

protected theorem map {decoder : Decoder α} (orderly : decoder.Orderly) (f : α → β) :
    (f <$> decoder).Orderly := by
  rw [map_eq_pure_bind]
  exact orderly.bind fun _ => .pure _

protected theorem take (needed : Nat) : (take needed).Orderly where
  ok_amid read before behind :=
    take_eq_ok_iff_passes.mpr ((take_eq_ok_iff_passes.mp read).amid before behind)
  error_amid failed before behind complete := by
    obtain ⟨short, rfl, rfl⟩ := take_eq_error_iff.mp failed
    obtain rfl := complete ⟨_, _, rfl⟩
    refine take_eq_error_iff.mpr ⟨?_, ?_, rfl⟩
    · rwa [Reader.remaining_amid_nil]
    · rw [Reader.remaining_amid_nil]
  remaining_le read := by
    have taken := remaining_of_take read
    omega
  truthful failed := by
    obtain ⟨short, same, rfl⟩ := take_eq_error_iff.mp failed
    cases same
    exact ⟨rfl, fun _ => short⟩

/-- So many elements, one behind the other. -/
protected theorem exactly {element : Decoder α} (orderly : element.Orderly) (number : Nat) :
    (exactly number element).Orderly :=
  exactly_of_closed Orderly .pure (fun _ => orderly.bind) number

end Orderly

theorem uint8_orderly : uint8.Orderly := (Orderly.take 1).map _

theorem int32_orderly : int32.Orderly := (Orderly.take 4).map _

theorem uint32_orderly : uint32.Orderly := (Orderly.take 4).map _

theorem int64_orderly : int64.Orderly := (Orderly.take 8).map _

theorem hash_orderly : hash.Orderly := .take 32

theorem varBytes_orderly : varBytes.Orderly :=
  uint8_orderly.bind fun _ => (Orderly.take _).bind fun _ => .pure _

/-! ### Decoders that fail by known causes only -/

/-- **The decoder fails by these causes only.** -/
def FailsBy (decoder : Decoder α) (causes : DecodeError → Prop) : Prop :=
  ∀ (reader after : Reader) (fault : DecodeError), decoder reader = .error fault after → causes fault

/-- The decoder fails only for want of bytes. -/
abbrev Plain (decoder : Decoder α) : Prop := decoder.FailsBy DecodeError.IsTruncated

namespace FailsBy

variable {causes others : DecodeError → Prop}

protected theorem mono {decoder : Decoder α} (fails : decoder.FailsBy causes)
    (more : ∀ fault, causes fault → others fault) : decoder.FailsBy others :=
  fun _ _ _ failed => more _ (fails _ _ _ failed)

protected theorem pure (value : α) : FailsBy (pure value) causes :=
  fun _ _ _ failed => absurd failed (pure_ne_error _)

protected theorem bind {first : Decoder α} {next : α → Decoder β} (head : first.FailsBy causes)
    (tail : ∀ value, (next value).FailsBy causes) : (first >>= next).FailsBy causes := by
  intro reader after fault failed
  rcases bind_eq_error_iff.mp failed with front | ⟨value, _, _, back⟩
  · exact head _ _ _ front
  · exact tail value _ _ _ back

protected theorem map {decoder : Decoder α} (fails : decoder.FailsBy causes) (f : α → β) :
    (f <$> decoder).FailsBy causes :=
  fun _ _ _ failed => fails _ _ _ (map_eq_error_iff.mp failed)

/-- So many elements fail as one does. -/
protected theorem exactly {element : Decoder α} (fails : element.FailsBy causes) (number : Nat) :
    (exactly number element).FailsBy causes :=
  exactly_of_closed (FailsBy · causes) FailsBy.pure (fun _ => fails.bind) number

end FailsBy

theorem take_plain (needed : Nat) : (take needed).Plain :=
  fun _ _ _ failed => ⟨_, _, (take_eq_error_iff.mp failed).2.1⟩

theorem uint8_plain : uint8.Plain := (take_plain 1).map _

theorem int32_plain : int32.Plain := (take_plain 4).map _

theorem uint32_plain : uint32.Plain := (take_plain 4).map _

theorem hash_plain : hash.Plain := take_plain 32

theorem varBytes_plain : varBytes.Plain :=
  uint8_plain.bind fun _ => (take_plain _).bind fun _ => .pure _

/-! ### Counts that are refused -/

/-- **Why a count is refused**: it is cut short, it is negative, or what it counts cannot lie behind it. -/
inductive CountRefused (minSize : Nat) (reader : Reader) : DecodeError → Reader → Prop
  | cut (short : reader.remaining < 8) :
      CountRefused minSize reader (.truncated 8 reader.remaining) reader
  | negative {announced : Int64} {after : Reader}
      (read : reader.Passes (LittleEndian.ofInt64 announced) after) (negative : announced < 0) :
      CountRefused minSize reader (.negativeCount announced) after
  | crowded {number : Nat} {after : Reader} (small : number < Wire.countBound)
      (read : reader.Passes (Wire.encodeCount number) after)
      (crowded : after.remaining < number * max minSize 1) :
      CountRefused minSize reader (.truncated (min (number * minSize) maxLength) after.remaining) after

section Counts

variable {minSize number : Nat} {announced : Int64} {between : Reader}

/-- An integer is cut short where fewer than eight bytes lie ahead. -/
theorem int64_eq_error_iff :
    int64 reader = .error fault after ↔
      reader.remaining < 8 ∧ fault = .truncated 8 reader.remaining ∧ after = reader := by
  rw [int64, map_eq_error_iff, take_eq_error_iff]

/-- What `count` makes of an integer that it read. -/
theorem count_of_int64 (read : int64 reader = .ok announced after) :
    count minSize reader =
      if announced < 0 then .error (.negativeCount announced) after
      else if announced.toInt.toNat ≤ after.remaining / max minSize 1 then
        .ok announced.toInt.toNat after
      else .error (.truncated (min (announced.toInt.toNat * minSize) maxLength) after.remaining)
        after := by
  rw [count, bind_of_ok read]
  change (if announced < 0 then throw (.negativeCount announced)
    else if announced.toInt.toNat ≤ after.remaining / max minSize 1 then
      pure announced.toInt.toNat
    else throw (.truncated (min (announced.toInt.toNat * minSize) maxLength) after.remaining) :
      Decoder Nat) after = _
  by_cases negative : announced < 0
  · rw [if_pos negative, if_pos negative]
    rfl
  · rw [if_neg negative, if_neg negative]
    split <;> rfl

/-- A written count is read as the integer that it is. -/
theorem int64_of_passes_encodeCount (small : number < Wire.countBound)
    (passes : reader.Passes (Wire.encodeCount number) after) :
    int64 reader = .ok (Int64.ofNat number) after := by
  obtain ⟨nonneg, same⟩ := LittleEndian.toInt_ofNat_toNat small
  refine int64_inverts.iff.mpr ⟨trivial, ?_⟩
  rwa [ofInt64_of_nonneg nonneg, same]

/-- No written count is a negative integer. -/
theorem not_negative_of_passes (small : number < Wire.countBound)
    (passes : reader.Passes (Wire.encodeCount number) between)
    (also : reader.Passes (LittleEndian.ofInt64 announced) after) : ¬ announced < 0 := by
  have read := int64_inverts.iff.mpr ⟨trivial, also⟩
  rw [int64_of_passes_encodeCount small passes] at read
  cases read
  exact (LittleEndian.toInt_ofNat_toNat small).1

/-- **Nothing else makes a count refused.** -/
theorem count_eq_error_iff :
    count minSize reader = .error fault after ↔ CountRefused minSize reader fault after := by
  have least : 0 < max minSize 1 := by omega
  constructor
  · intro failed
    cases read : int64 reader with
    | error other between =>
      have cut : count minSize reader = .error other between :=
        bind_eq_error_iff.mpr (Or.inl read)
      rw [cut] at failed
      cases failed
      obtain ⟨short, rfl, rfl⟩ := int64_eq_error_iff.mp read
      exact .cut short
    | ok announced between =>
      have passes := (int64_inverts.iff.mp read).2
      rw [count_of_int64 read] at failed
      split at failed
      next negative =>
        cases failed
        exact .negative passes negative
      next nonneg =>
        split at failed
        · cases failed
        next tight =>
          cases failed
          rw [ofInt64_of_nonneg nonneg] at passes
          rw [Nat.le_div_iff_mul_le least] at tight
          exact .crowded (LittleEndian.toInt_toNat_lt announced) passes (Nat.not_le.mp tight)
  · rintro (short | ⟨passes, negative⟩ | ⟨small, passes, crowded⟩)
    · exact bind_eq_error_iff.mpr (Or.inl (int64_eq_error_iff.mpr ⟨short, rfl, rfl⟩))
    · rw [count_of_int64 (int64_inverts.iff.mpr ⟨trivial, passes⟩), if_pos negative]
    · obtain ⟨nonneg, same⟩ := LittleEndian.toInt_ofNat_toNat small
      rw [count_of_int64 (int64_of_passes_encodeCount small passes), if_neg nonneg, same, if_neg]
      rw [Nat.le_div_iff_mul_le least]
      exact Nat.not_le.mpr crowded

theorem CountRefused.amid (refused : CountRefused minSize reader fault after) (before : Nat)
    (behind : Bytes) (complete : fault.IsTruncated → behind = []) :
    CountRefused minSize (reader.amid before behind) fault (after.amid before behind) := by
  cases refused with
  | cut short =>
    obtain rfl := complete ⟨_, _, rfl⟩
    rw [← reader.remaining_amid_nil before] at short ⊢
    exact .cut short
  | negative passes negative => exact .negative (passes.amid before behind) negative
  | crowded small passes crowded =>
    obtain rfl := complete ⟨_, _, rfl⟩
    rw [← after.remaining_amid_nil before] at crowded ⊢
    exact .crowded small (passes.amid before []) crowded

/-- As far as lengths can be named, more is needed than lies ahead. -/
theorem CountRefused.truthful (positive : 0 < minSize) {needed remaining : Nat}
    (refused : CountRefused minSize reader (.truncated needed remaining) after) :
    remaining = after.remaining ∧ (reader.remaining < maxLength → remaining < needed) := by
  cases refused with
  | cut short => exact ⟨rfl, fun _ => short⟩
  | crowded small passes crowded =>
    have ahead := passes.remaining_eq
    rw [Nat.max_eq_left positive] at crowded
    exact ⟨rfl, fun named => by omega⟩

theorem count_orderly (positive : 0 < minSize) : (count minSize).Orderly where
  ok_amid read before behind := by
    obtain ⟨small, passes, room⟩ := count_eq_ok_iff.mp read
    refine count_eq_ok_iff.mpr ⟨small, passes.amid before behind, ?_⟩
    rw [Reader.remaining_amid]
    omega
  error_amid failed before behind complete :=
    count_eq_error_iff.mpr ((count_eq_error_iff.mp failed).amid before behind complete)
  remaining_le read := by
    have ahead := (count_eq_ok_iff.mp read).2.1.remaining_eq
    omega
  truthful failed := (count_eq_error_iff.mp failed).truthful positive

end Counts

end Decoder

/-! ### Rules that read counts -/

/-- **A rule that reads written counts, is orderly, and refuses a count only for a reason.** -/
structure CountRule.Careful (rule : CountRule) : Prop extends rule.Lawful where
  orderly : ∀ {minSize : Nat}, 0 < minSize → (rule minSize).Orderly
  refused : ∀ {minSize : Nat} {reader after : Reader} {fault : DecodeError},
    rule minSize reader = .error fault after → Decoder.CountRefused minSize reader fault after

theorem Decoder.count_careful : CountRule.Careful count where
  toLawful := count_lawful
  orderly := count_orderly
  refused := count_eq_error_iff.mp

namespace CountRule.Careful

open Decoder

variable {rule : CountRule} {minSize : Nat} {reader after : Reader} {announced : Int64}
  {α : Type} {element : Decoder α}

/-- **A careful rule refuses the negative integers**, and tells them. -/
theorem eq_negativeCount_iff (careful : rule.Careful) :
    rule minSize reader = .error (.negativeCount announced) after ↔
      announced < 0 ∧ reader.Passes (LittleEndian.ofInt64 announced) after := by
  constructor
  · intro failed
    cases careful.refused failed with
    | negative passes negative => exact ⟨negative, passes⟩
  · rintro ⟨negative, passes⟩
    cases answer : rule minSize reader with
    | ok number between =>
      obtain ⟨small, counted⟩ := careful.sound answer
      exact absurd negative (not_negative_of_passes small counted passes)
    | error fault between =>
      cases careful.refused answer with
      | cut short =>
        have ahead := passes.remaining_eq
        rw [LittleEndian.length_ofInt64] at ahead
        omega
      | negative also _ =>
        have read := int64_inverts.iff.mpr ⟨trivial, passes⟩
        rw [int64_inverts.iff.mpr ⟨trivial, also⟩] at read
        cases read
        rfl
      | crowded small counted _ => exact absurd negative (not_negative_of_passes small counted passes)

/-- Bytes are missing, or a count is negative. -/
theorem failsBy (careful : rule.Careful) : (rule minSize).FailsBy DecodeError.IsOfReads := by
  intro reader after fault failed
  cases careful.refused failed with
  | cut short => exact Or.inl ⟨_, _, rfl⟩
  | negative passes negative => exact Or.inr ⟨_, rfl⟩
  | crowded small passes crowded => exact Or.inl ⟨_, _, rfl⟩

theorem list_failsBy (careful : rule.Careful) (fails : element.FailsBy DecodeError.IsOfReads) :
    (Wire.decodeList (rule minSize) element).FailsBy DecodeError.IsOfReads :=
  careful.failsBy.bind fun number => fails.exactly number

theorem list_orderly (careful : rule.Careful) (positive : 0 < minSize) (orderly : element.Orderly) :
    (Wire.decodeList (rule minSize) element).Orderly :=
  (careful.orderly positive).bind fun number => orderly.exactly number

/-- **Of a list of plain elements, only the count can be negative.** -/
theorem list_eq_negativeCount_iff (careful : rule.Careful) (plain : element.Plain) :
    Wire.decodeList (rule minSize) element reader = .error (.negativeCount announced) after ↔
      announced < 0 ∧ reader.Passes (LittleEndian.ofInt64 announced) after := by
  rw [Wire.decodeList, bind_eq_error_iff, ← careful.eq_negativeCount_iff]
  constructor
  · rintro (counted | ⟨number, _, _, failed⟩)
    · exact counted
    · obtain ⟨_, _, ⟨⟩⟩ := plain.exactly number _ _ _ failed
  · exact Or.inl

end CountRule.Careful

end Utxo
