/-
**Numbers of JSON, as they are written.**

* `Json.Number`: sign, whole part, and the digits of fraction and exponent, so that no number is
  too large to be kept.
* `Number.integer?`: the integer of a number written without fraction and exponent. A zero with a
  sign is not an integer.
* `Json.scanNumber?`: a number from the front of a text, as long as it can be.
* `Number.render`: the number as text.
-/

import Utxo.Numeral.Decimal

namespace Utxo.Json

/-- A number. -/
structure Number where
  negative : Bool
  whole : Nat
  fraction : Option (List Char)
  exponent : Option (Bool × List Char)
deriving DecidableEq, Repr

namespace Number

/-- The number of an integer. -/
def ofInt (value : Int) : Number := ⟨value < 0, value.natAbs, none, none⟩

/-- The integer that the number was written as. -/
def integer? (number : Number) : Option Int :=
  match number.fraction, number.exponent with
  | none, none =>
    if number.negative then
      if number.whole = 0 then none else some (-(number.whole : Int))
    else some number.whole
  | _, _ => none

/-- The integer of an integer's number is that integer. -/
theorem integer?_ofInt (value : Int) : (ofInt value).integer? = some value := by
  by_cases negative : value < 0
  · have nonzero : value.natAbs ≠ 0 := by omega
    simp only [integer?, ofInt, negative, decide_true, if_true, nonzero, if_false]
    exact congrArg some (by omega)
  · simp only [integer?, ofInt, negative, decide_false, Bool.false_eq_true, if_false]
    exact congrArg some (by omega)

/-- The number as text. -/
def render (number : Number) : List Char :=
  (if number.negative then ['-'] else []) ++ Decimal.render number.whole ++
    (match number.fraction with
      | none => []
      | some digits => '.' :: digits) ++
    (match number.exponent with
      | none => []
      | some (negative, digits) => 'e' :: (if negative then ['-'] else []) ++ digits)

end Number

/-- The digits at the front of a text, and what follows them. -/
def scanDigits (source : List Char) : List Char × List Char :=
  (source.takeWhile Decimal.isDigit, source.dropWhile Decimal.isDigit)

/-- A whole part: at least one digit, the first of several not zero. -/
def scanWhole? (source : List Char) : Option (Nat × List Char) :=
  match scanDigits source with
  | ([], _) => none
  | (first :: more, rest) =>
    if first = '0' ∧ more ≠ [] then none else some (Decimal.value (first :: more), rest)

/-- A fraction, if a point comes next: at least one digit. -/
def scanFraction? : List Char → Option (Option (List Char) × List Char)
  | '.' :: source =>
    match scanDigits source with
    | ([], _) => none
    | (digits, rest) => some (some digits, rest)
  | source => some (none, source)

/-- A sign, if one comes next. -/
def scanSign : List Char → Bool × List Char
  | '-' :: source => (true, source)
  | '+' :: source => (false, source)
  | source => (false, source)

/-- An exponent, if its letter comes next: perhaps a sign, and at least one digit. -/
def scanExponent? : List Char → Option (Option (Bool × List Char) × List Char)
  | letter :: source =>
    if letter = 'e' ∨ letter = 'E' then
      let (negative, source) := scanSign source
      match scanDigits source with
      | ([], _) => none
      | (digits, rest) => some (some (negative, digits), rest)
    else some (none, letter :: source)
  | [] => some (none, [])

/-- A number without its sign. -/
def scanUnsigned? (negative : Bool) (source : List Char) : Option (Number × List Char) := do
  let (whole, source) ← scanWhole? source
  let (fraction, source) ← scanFraction? source
  let (exponent, source) ← scanExponent? source
  return (⟨negative, whole, fraction, exponent⟩, source)

/-- A number, and what follows it. -/
def scanNumber? : List Char → Option (Number × List Char)
  | '-' :: source => scanUnsigned? true source
  | source => scanUnsigned? false source

theorem length_scanDigits_le (source : List Char) :
    (scanDigits source).2.length ≤ source.length :=
  (List.dropWhile_suffix Decimal.isDigit).length_le

theorem length_lt_of_scanWhole? {source rest : List Char} {whole : Nat}
    (scanned : scanWhole? source = some (whole, rest)) : rest.length < source.length := by
  have split := congrArg List.length (List.takeWhile_append_dropWhile (p := Decimal.isDigit)
    (l := source))
  simp only [scanWhole?, scanDigits] at scanned
  grind

theorem length_le_of_scanFraction? {source rest : List Char} {fraction : Option (List Char)}
    (scanned : scanFraction? source = some (fraction, rest)) : rest.length ≤ source.length := by
  unfold scanFraction? at scanned
  split at scanned
  · have := length_scanDigits_le
    grind
  · grind

theorem length_scanSign_le (source : List Char) : (scanSign source).2.length ≤ source.length := by
  unfold scanSign
  split <;> simp

theorem length_le_of_scanExponent? {source rest : List Char}
    {exponent : Option (Bool × List Char)}
    (scanned : scanExponent? source = some (exponent, rest)) : rest.length ≤ source.length := by
  unfold scanExponent? at scanned
  split at scanned
  next letter source =>
    have sign := length_scanSign_le source
    have digits := length_scanDigits_le (scanSign source).2
    simp only [List.length_cons]
    dsimp only at scanned
    split at scanned
    · split at scanned
      · cases scanned
      · next split =>
        rw [split] at digits
        cases scanned
        simp only at digits
        omega
    · cases scanned
      simp
  next =>
    cases scanned
    simp

/-- A number takes at least one character. -/
theorem length_lt_of_scanNumber? {source rest : List Char} {number : Number}
    (scanned : scanNumber? source = some (number, rest)) : rest.length < source.length := by
  have unsigned : ∀ negative source, scanUnsigned? negative source = some (number, rest) →
      rest.length < source.length := by
    intro negative source scanned
    simp only [scanUnsigned?, Option.bind_eq_bind, Option.bind_eq_some_iff, Option.pure_def,
      Option.some.injEq, Prod.mk.injEq, Prod.exists] at scanned
    obtain ⟨_, _, whole, _, _, fraction, _, _, exponent, _, rfl⟩ := scanned
    have := length_lt_of_scanWhole? whole
    have := length_le_of_scanFraction? fraction
    have := length_le_of_scanExponent? exponent
    omega
  unfold scanNumber? at scanned
  split at scanned
  · have := unsigned _ _ scanned
    simp only [List.length_cons]
    omega
  · exact unsigned _ _ scanned

end Utxo.Json
