/-
**A count is given just where what it counts can lie behind it.**

* `Decoder.exists_passes_int64`: where eight bytes lie ahead, they are those of an integer.
* `Decoder.lt_needed_iff`: what a refused count is said to need is more than what remains, unless it counts
  elements of no bytes.
* `Decoder.CountAnswered`: all that a caller can rely on, of a count whose integer was read;
  `Decoder.count_answered`: of every count.
-/

import Utxo.Proofs.Wire.Surroundings

namespace Utxo.Decoder

variable {minSize number : Nat} {reader after : Reader} {announced : Int64}

/-! ### The integer of a count -/

/-- Eight bytes are those of an integer. -/
theorem exists_passes_int64 (enough : 8 ≤ reader.remaining) :
    ∃ announced after, reader.Passes (LittleEndian.ofInt64 announced) after := by
  cases read : int64 reader with
  | ok announced after => exact ⟨announced, after, (int64_inverts.iff.mp read).2⟩
  | error fault after =>
    obtain ⟨short, -, -⟩ := int64_eq_error_iff.mp read
    exact absurd enough (Nat.not_le.mpr short)

/-- An integer that is a number has the bytes of its count. -/
theorem ofInt64_of_toInt (same : announced.toInt = number) :
    number < Wire.countBound ∧ LittleEndian.ofInt64 announced = Wire.encodeCount number := by
  have nonneg : ¬ announced < 0 := by
    rw [Int64.lt_iff_toInt_lt, same]
    exact Int.not_lt.mpr (Int.natCast_nonneg number)
  have value : announced.toInt.toNat = number := by rw [same, Int.toNat_natCast]
  rw [← value]
  exact ⟨LittleEndian.toInt_toNat_lt announced, ofInt64_of_nonneg nonneg⟩

/-- A count whose bytes are those of an integer is this integer. -/
theorem toInt_of_passes (small : number < Wire.countBound)
    (passes : reader.Passes (LittleEndian.ofInt64 announced) after) {last : Reader}
    (counted : reader.Passes (Wire.encodeCount number) last) :
    announced.toInt = number ∧ last = after := by
  have read := int64_of_passes_encodeCount small counted
  rw [int64_inverts.iff.mpr ⟨trivial, passes⟩] at read
  cases read
  exact ⟨Int64.toInt_ofNat_of_lt small, rfl⟩

/-! ### What is missing behind a count -/

/-- **More is needed than remains, unless elements of no bytes are counted.** A product that cannot be named
is told as the largest length, and this is more than what remains too. -/
theorem lt_needed_iff {remaining : Nat} (named : remaining < maxLength)
    (crowded : remaining < number * max minSize 1) :
    remaining < min (number * minSize) maxLength ↔ 0 < minSize := by
  by_cases positive : 0 < minSize
  · rw [Nat.max_eq_left positive] at crowded
    simp only [positive, iff_true]
    exact Nat.lt_min.mpr ⟨crowded, named⟩
  · have none : minSize = 0 := Nat.eq_zero_of_not_pos positive
    simp [none]

/-! ### What a caller gets -/

/-- **All that a caller can rely on**, of a count whose eight bytes are those of this integer. -/
structure CountAnswered (minSize : Nat) (reader : Reader) (announced : Int64) (after : Reader) : Prop where
  /-- Just the negative integers are refused as such. -/
  negative : count minSize reader = .error (.negativeCount announced) after ↔ announced < 0
  /-- A number is given just where so many elements can lie ahead, none of them taken for less than a byte. -/
  given : ∀ {number : Nat} {last : Reader}, count minSize reader = .ok number last ↔
    announced.toInt = number ∧ last = after ∧ number * max minSize 1 ≤ after.remaining
  /-- Otherwise bytes are missing. It is told how many remain, and how many are needed as far as lengths can be
  named: more than remain, unless the elements have no bytes. -/
  crowded : ∀ {number : Nat}, announced.toInt = number → after.remaining < number * max minSize 1 →
    count minSize reader =
        .error (.truncated (min (number * minSize) maxLength) after.remaining) after ∧
      (after.remaining < min (number * minSize) maxLength ↔ 0 < minSize)

theorem countAnswered_of_passes (named : reader.remaining < maxLength)
    (passes : reader.Passes (LittleEndian.ofInt64 announced) after) :
    CountAnswered minSize reader announced after where
  negative := by
    rw [count_careful.eq_negativeCount_iff]
    exact and_iff_left passes
  given {number last} := by
    rw [count_eq_ok_iff]
    constructor
    · intro ⟨small, counted, room⟩
      obtain ⟨same, behind⟩ := toInt_of_passes small passes counted
      rw [behind] at room
      exact ⟨same, behind, room⟩
    · intro ⟨same, behind, room⟩
      obtain ⟨small, written⟩ := ofInt64_of_toInt same
      rw [written] at passes
      rw [behind]
      exact ⟨small, passes, room⟩
  crowded {number} same crowded := by
    have ahead : after.remaining < maxLength := by
      have whole := passes.remaining_eq
      omega
    obtain ⟨small, written⟩ := ofInt64_of_toInt same
    rw [written] at passes
    exact ⟨count_eq_error_iff.mpr (.crowded small passes crowded), lt_needed_iff ahead crowded⟩

/-- **A count is given just where what it counts can lie behind it**, whatever the least size of an element.
Where fewer than eight bytes lie ahead it is cut short and nothing is read. Else it is the integer of these
bytes: a negative one is refused as such, and one of more elements than can lie behind it for want of
bytes. What is then said to be needed is more than what remains, unless the elements have no bytes. -/
theorem count_answered (minSize : Nat) (reader : Reader) (named : reader.remaining < Nat.pow 2 63) :
    (reader.remaining < 8 → count minSize reader = .error (.truncated 8 reader.remaining) reader) ∧
    (8 ≤ reader.remaining → ∃ announced after, reader.Passes (LittleEndian.ofInt64 announced) after ∧
      CountAnswered minSize reader announced after) := by
  refine ⟨fun short => count_eq_error_iff.mpr (.cut short), fun enough => ?_⟩
  obtain ⟨announced, after, passes⟩ := exists_passes_int64 enough
  have length : reader.remaining < maxLength := Nat.lt_trans named (by decide)
  exact ⟨announced, after, passes, countAnswered_of_passes length passes⟩

/-- The largest count, with one byte behind it. -/
def largestCount : Reader := Reader.ofBytes [255, 255, 255, 255, 255, 255, 255, 127, 0]

/-- Of elements of the largest size it needs more bytes than can be named, and is said to need the largest
number of them. -/
theorem count_answered_largestCount :
    largestCount.remaining < Nat.pow 2 63 ∧ 8 ≤ largestCount.remaining ∧
      count maxLength largestCount = .error (.truncated maxLength 1) (Reader.startingAt 8 [0]) ∧
      1 < maxLength := by
  have named : largestCount.remaining < Nat.pow 2 63 := by decide
  have enough : 8 ≤ largestCount.remaining := by decide
  obtain ⟨announced, after, passes, answered⟩ := (count_answered maxLength largestCount named).2 enough
  have read : int64 largestCount = .ok 9223372036854775807 (Reader.startingAt 8 [0]) := rfl
  rw [int64_inverts.iff.mpr ⟨trivial, passes⟩] at read
  cases read
  have same : (9223372036854775807 : Int64).toInt = (9223372036854775807 : Nat) := by decide
  obtain ⟨refused, more⟩ := answered.crowded same (by decide)
  exact ⟨named, enough, refused, more.mpr (by decide)⟩

/-- One element of no bytes is refused where no bytes are left, and none are said to be needed. -/
theorem count_needsNothing :
    count 0 (Reader.ofBytes [1, 0, 0, 0, 0, 0, 0, 0]) = .error (.truncated 0 0) (Reader.startingAt 8 []) ∧
      ¬ ∀ {needed remaining : Nat} {after : Reader},
        count 0 (Reader.ofBytes [1, 0, 0, 0, 0, 0, 0, 0]) = .error (.truncated needed remaining) after →
          remaining < needed := by
  have refused : count 0 (Reader.ofBytes [1, 0, 0, 0, 0, 0, 0, 0]) =
      .error (.truncated 0 0) (Reader.startingAt 8 []) := rfl
  exact ⟨refused, fun truthful => Nat.not_lt_zero 0 (truthful refused)⟩

end Utxo.Decoder
