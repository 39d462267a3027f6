/-
**Refusing a count early never changes what is accepted.**

A count whose elements cannot lie behind it is refused before any of them is read. Without this guard they
would be read until one fails.

* `Decoder.uncheckedCount`: the rule without the guard, which refuses negative counts only;
  `Decoder.uncheckedCount_careful`: it reads the same counts.
* `Transaction.decoderWith_congr`, `Block.decoderWith_congr`: any two rules that read written counts accept
  the same byte strings, with the same values and ends.
* `Transaction.sameKind_of_errors`: of a transaction they also refuse them for the same kind of reason, as
  where bytes are missing does not depend on the rule.
* `countGuard_transparent`: this for the guard and the rule without it.
-/

import Utxo.Proofs.Ledger.Truncation

namespace Utxo

namespace Decoder

variable {minSize number : Nat} {reader after : Reader} {announced : Int64}

/-- The rule that refuses negative counts only, whatever lies ahead. -/
def uncheckedCount : CountRule := fun _ => do
  let announced ← int64
  if announced < 0 then throw (.negativeCount announced) else return announced.toInt.toNat

/-- What the rule makes of an integer that it read. -/
theorem uncheckedCount_of_int64 (read : int64 reader = .ok announced after) :
    uncheckedCount minSize reader =
      if announced < 0 then .error (.negativeCount announced) after
      else .ok announced.toInt.toNat after := by
  rw [uncheckedCount, bind_of_ok read]
  split <;> rfl

/-- A count is read where it was written. -/
theorem uncheckedCount_eq_ok_iff :
    uncheckedCount minSize reader = .ok number after ↔
      number < Wire.countBound ∧ reader.Passes (Wire.encodeCount number) after := by
  constructor
  · intro counted
    obtain ⟨announced, between, read, -⟩ := bind_eq_ok_iff.mp counted
    rw [uncheckedCount_of_int64 read] at counted
    split at counted
    · cases counted
    next nonneg =>
      cases counted
      have passes := (int64_inverts.iff.mp read).2
      rw [ofInt64_of_nonneg nonneg] at passes
      exact ⟨LittleEndian.toInt_toNat_lt announced, passes⟩
  · rintro ⟨small, passes⟩
    obtain ⟨nonneg, same⟩ := LittleEndian.toInt_ofNat_toNat small
    rw [uncheckedCount_of_int64 (int64_of_passes_encodeCount small passes), if_neg nonneg, same]

theorem uncheckedCount_orderly : (uncheckedCount minSize).Orderly := by
  refine int64_orderly.bind fun announced => ?_
  split
  · refine .throw ?_
    rintro ⟨_, _, ⟨⟩⟩
  · exact .pure _

theorem uncheckedCount_careful : CountRule.Careful uncheckedCount where
  sound := uncheckedCount_eq_ok_iff.mp
  complete small passes _ := uncheckedCount_eq_ok_iff.mpr ⟨small, passes⟩
  orderly _ := uncheckedCount_orderly
  refused failed := by
    rcases bind_eq_error_iff.mp failed with cut | ⟨announced, between, read, -⟩
    · obtain ⟨short, rfl, rfl⟩ := int64_eq_error_iff.mp cut
      exact .cut short
    · rw [uncheckedCount_of_int64 read] at failed
      split at failed
      next negative =>
        cases failed
        exact .negative (int64_inverts.iff.mp read).2 negative
      next => cases failed

end Decoder

/-- The two say that bytes are missing, or that one count is negative. -/
inductive DecodeError.SameKind : DecodeError → DecodeError → Prop
  | truncated (needed remaining more left : Nat) :
      SameKind (.truncated needed remaining) (.truncated more left)
  | negativeCount (count : Int64) : SameKind (.negativeCount count) (.negativeCount count)

open Decoder

variable {rule other : CountRule} {reader after left : Reader} {fault cause : DecodeError}

/-- **Rules that read written counts accept the same transactions.** -/
theorem Transaction.decoderWith_congr (lawful : rule.Lawful) (also : other.Lawful)
    {transaction : Transaction} :
    decoderWith rule reader = .ok transaction after ↔
      decoderWith other reader = .ok transaction after := by
  rw [(decoderWith_inverts lawful).iff, (decoderWith_inverts also).iff]

/-- **Rules that read written counts accept the same blocks.** -/
theorem Block.decoderWith_congr (lawful : rule.Lawful) (also : other.Lawful) {block : Block} :
    decoderWith rule reader = .ok block after ↔ decoderWith other reader = .ok block after := by
  rw [(decoderWith_inverts lawful).iff, (decoderWith_inverts also).iff]

/-- **Careful rules refuse a transaction for the same kind of reason.** -/
theorem Transaction.sameKind_of_errors (careful : rule.Careful) (also : other.Careful)
    (failed : decoderWith rule reader = .error fault after)
    (again : decoderWith other reader = .error cause left) : fault.SameKind cause := by
  rcases decoderWith_failsBy careful _ _ _ failed with ⟨needed, remaining, rfl⟩ | ⟨count, rfl⟩
  · -- where the bytes end too early, they do so for either rule
    have truncates : (decoderWith rule).Truncates reader := ⟨_, after, failed, needed, remaining, rfl⟩
    rw [decoderWith_truncates_iff careful, ← decoderWith_truncates_iff also] at truncates
    obtain ⟨_, _, same, more, rest, rfl⟩ := truncates
    rw [again] at same
    cases same
    exact .truncated needed remaining more rest
  · have miscounted := (decoderWith_eq_negativeCount_iff careful).mp ⟨after, failed⟩
    obtain ⟨_, same⟩ := (decoderWith_eq_negativeCount_iff also).mpr miscounted
    rw [again] at same
    cases same
    exact .negativeCount count

/-- **The guard never changes what is accepted.** Wherever a reader stands, a transaction or a block is
decoded, and ends, just as without the guard; and a transaction that is refused by both is refused for
want of bytes by both, or for the same negative count. -/
theorem countGuard_transparent :
    (∀ (reader after : Reader) (transaction : Transaction),
      Transaction.decoder reader = .ok transaction after ↔
        Transaction.decoderWith uncheckedCount reader = .ok transaction after) ∧
    (∀ (reader after : Reader) (block : Block), Block.decoder reader = .ok block after ↔
      Block.decoderWith uncheckedCount reader = .ok block after) ∧
    ∀ (reader after left : Reader) (fault cause : DecodeError),
      Transaction.decoder reader = .error fault after →
        Transaction.decoderWith uncheckedCount reader = .error cause left → fault.SameKind cause :=
  ⟨fun _ _ _ => Transaction.decoderWith_congr count_lawful uncheckedCount_careful.toLawful,
    fun _ _ _ => Block.decoderWith_congr count_lawful uncheckedCount_careful.toLawful,
    fun _ _ _ _ _ => Transaction.sameKind_of_errors count_careful uncheckedCount_careful⟩

/-- Behind a byte, a transaction is read alike; and one of two inputs that are missing is refused at their
count or at the first of them. -/
theorem countGuard_transparent_twoInputs :
    (∃ after, Transaction.decoderWith uncheckedCount (Reader.within (7 :: twoInputs.encode) 1) =
      .ok twoInputs after) ∧
    DecodeError.SameKind (.truncated 82 0) (.truncated 32 0) := by
  obtain ⟨transactions, -, sameKind⟩ := countGuard_transparent
  refine ⟨⟨_, (transactions _ _ twoInputs).mp rfl⟩, ?_⟩
  exact sameKind (Reader.ofBytes [1, 0, 0, 0, 2, 0, 0, 0, 0, 0, 0, 0]) _ _ _ _ rfl rfl

/-- A block of two transactions, of which the first counts its inputs as minus one and the second is
missing: the guard speaks first, so that of blocks the kinds may differ. -/
example :
    let bytes := List.replicate 88 0 ++ [2, 0, 0, 0, 0, 0, 0, 0] ++ List.replicate 12 0xff
    (∃ after, Block.decoder (Reader.ofBytes bytes) = .error (.truncated 48 12) after) ∧
      ∃ after, Block.decoderWith uncheckedCount (Reader.ofBytes bytes) =
        .error (.negativeCount (-1)) after :=
  ⟨⟨_, rfl⟩, ⟨_, rfl⟩⟩

end Utxo
