/-
**Numbers and strings are scanned back from their own texts.**

* `Decimal.value_render`: a numeral denotes the number that it was written for;
  `Json.scanDigits_append`: all its digits are scanned, if no digit follows.
* `Json.Follows`: what may stand behind a number; `Json.scanNumber?_render`: an integer's number is scanned
  back in front of this.
* `Json.Text.isPlain`: a string that can be written without units; `Json.scanText?_render`: it is scanned
  back, whatever stands behind its closing quote.
-/

import Utxo.Json.Number
import Utxo.Json.Text
import Utxo.Proofs.Numeral.Radix

namespace Utxo

/-! ### Numerals -/

namespace Decimal

variable {number : Nat}

theorem isDigit_digit (small : number < 10) : isDigit (digit number) = true := by
  have each : ∀ value : Fin 10, isDigit (digit value) = true := by decide
  exact each ⟨number, small⟩

theorem digitValue_digit (small : number < 10) : digitValue (digit number) = number := by
  have each : ∀ value : Fin 10, digitValue (digit value) = value.val := by decide
  exact each ⟨number, small⟩

theorem map_digitValue_map_digit {digits : List Nat} (small : ∀ digit ∈ digits, digit < 10) :
    (digits.map digit).map digitValue = digits := by
  rw [List.map_map]
  refine (List.map_congr_left fun number member => ?_).trans (List.map_id digits)
  exact digitValue_digit (small number member)

/-- The numeral of zero is a digit too. -/
theorem exists_digits (number : Nat) : ∃ digits : List Nat, digits ≠ [] ∧
    (∀ digit ∈ digits, digit < 10) ∧ render number = digits.map digit ∧
      Radix.value 10 digits = number ∧ (digits.head? = some 0 → digits = [0]) := by
  by_cases zero : number = 0
  · subst zero
    exact ⟨[0], by simp, by simp, rfl, rfl, fun _ => rfl⟩
  · refine ⟨Radix.digits 10 number, ?_, Radix.digits_lt number, if_neg zero,
      Radix.value_digits (by decide) number, fun leading => ?_⟩
    · intro none
      have value := Radix.value_digits (show 2 ≤ 10 by decide) number
      rw [none] at value
      exact zero value.symm
    · exact absurd leading (Radix.head?_digits_ne_zero (by decide) number)

theorem isDigit_of_mem_render {c : Char} (member : c ∈ render number) : isDigit c = true := by
  obtain ⟨digits, -, small, same, -⟩ := exists_digits number
  rw [same] at member
  obtain ⟨digit, inside, rfl⟩ := List.mem_map.mp member
  exact isDigit_digit (small digit inside)

theorem value_render (number : Nat) : value (render number) = number := by
  obtain ⟨digits, -, small, same, denotes, -⟩ := exists_digits number
  rw [same, value, map_digitValue_map_digit small, denotes]

/-- A numeral is not empty, and only that of zero begins with a zero. -/
theorem exists_render_eq_cons (number : Nat) :
    ∃ first more, render number = first :: more ∧ ¬ (first = '0' ∧ more ≠ []) := by
  obtain ⟨digits, nonempty, small, same, -, leading⟩ := exists_digits number
  cases digits with
  | nil => exact absurd rfl nonempty
  | cons head tail =>
    refine ⟨digit head, tail.map digit, same, ?_⟩
    rintro ⟨zero, longer⟩
    have value := digitValue_digit (small head List.mem_cons_self)
    rw [zero] at value
    obtain ⟨-, rfl⟩ := List.cons.inj (leading (congrArg some value.symm))
    exact longer rfl

end Decimal

namespace Json

/-! ### Numbers -/

/-- **What may stand behind a number**: nothing, or a character that does not go on with it. -/
def Follows (behind : List Char) : Prop :=
  ∀ c ∈ behind.head?, Decimal.isDigit c = false ∧ c ≠ '.' ∧ c ≠ 'e' ∧ c ≠ 'E'

theorem follows_nil : Follows [] := by
  rintro c ⟨⟩

theorem follows_cons {c : Char} {behind : List Char} (apart : Decimal.isDigit c = false)
    (noPoint : c ≠ '.') (noLetter : c ≠ 'e') (noCapital : c ≠ 'E') : Follows (c :: behind) := by
  rintro _ ⟨⟩
  exact ⟨apart, noPoint, noLetter, noCapital⟩

variable {behind : List Char}

theorem scanDigits_append {digits : List Char} (all : ∀ c ∈ digits, Decimal.isDigit c = true)
    (follows : Follows behind) : scanDigits (digits ++ behind) = (digits, behind) := by
  have stop : behind.takeWhile Decimal.isDigit = [] ∧ behind.dropWhile Decimal.isDigit = behind := by
    cases behind with
    | nil => exact ⟨rfl, rfl⟩
    | cons c rest =>
      have apart := (follows c rfl).1
      exact ⟨List.takeWhile_cons_of_neg (by simp [apart]), List.dropWhile_cons_of_neg (by simp [apart])⟩
  rw [scanDigits, List.takeWhile_append_of_pos all, List.dropWhile_append_of_pos all, stop.1, stop.2,
    List.append_nil]

theorem scanWhole?_render (number : Nat) (follows : Follows behind) :
    scanWhole? (Decimal.render number ++ behind) = some (number, behind) := by
  have scanned : scanDigits (Decimal.render number ++ behind) = (Decimal.render number, behind) :=
    scanDigits_append (fun _ => Decimal.isDigit_of_mem_render) follows
  obtain ⟨first, more, same, bare⟩ := Decimal.exists_render_eq_cons number
  have value := Decimal.value_render number
  rw [same] at scanned value ⊢
  rw [scanWhole?, scanned]
  show (if first = '0' ∧ more ≠ [] then none else some (Decimal.value (first :: more), behind)) = _
  rw [if_neg bare, value]

theorem scanFraction?_of_follows (follows : Follows behind) :
    scanFraction? behind = some (none, behind) := by
  cases behind with
  | nil => rfl
  | cons c rest =>
    have noPoint := (follows c rfl).2.1
    rw [scanFraction?]
    rintro _ ⟨⟩
    exact noPoint rfl

theorem scanExponent?_of_follows (follows : Follows behind) :
    scanExponent? behind = some (none, behind) := by
  cases behind with
  | nil => rfl
  | cons c rest =>
    obtain ⟨-, -, noLetter, noCapital⟩ := follows c rfl
    rw [scanExponent?, if_neg (by simp [noLetter, noCapital])]

theorem scanUnsigned?_render (negative : Bool) (number : Nat) (follows : Follows behind) :
    scanUnsigned? negative (Decimal.render number ++ behind) =
      some (⟨negative, number, none, none⟩, behind) := by
  rw [scanUnsigned?, scanWhole?_render number follows]
  show (scanFraction? behind >>= _) = _
  rw [scanFraction?_of_follows follows]
  show (scanExponent? behind >>= _) = _
  rw [scanExponent?_of_follows follows]
  rfl

/-- A number that is written as its sign and its whole part. -/
def Number.isPlain (number : Number) : Bool := number.fraction.isNone && number.exponent.isNone

/-- **A number without fraction and exponent is scanned back.** -/
theorem scanNumber?_render {number : Number} (plain : number.isPlain) (follows : Follows behind) :
    scanNumber? (number.render ++ behind) = some (number, behind) := by
  obtain ⟨negative, whole, fraction, exponent⟩ := number
  obtain ⟨rfl, rfl⟩ : fraction = none ∧ exponent = none := by
    simpa [Number.isPlain] using plain
  have text : Number.render ⟨negative, whole, none, none⟩ =
      (if negative then ['-'] else []) ++ Decimal.render whole := by
    simp [Number.render]
  rw [text]
  cases negative with
  | true =>
    show scanUnsigned? true (Decimal.render whole ++ behind) = _
    exact scanUnsigned?_render true whole follows
  | false =>
    have scanned := scanUnsigned?_render false whole follows
    obtain ⟨first, more, same, -⟩ := Decimal.exists_render_eq_cons whole
    have digit : Decimal.isDigit first = true :=
      Decimal.isDigit_of_mem_render (by rw [same]; exact List.mem_cons_self)
    show scanNumber? (Decimal.render whole ++ behind) = _
    rw [same] at scanned ⊢
    rw [← scanned, List.cons_append, scanNumber?]
    rintro _ ⟨⟩
    cases digit

/-! ### Strings -/

/-- A character that is not written as a unit. -/
def Piece.isPlain : Piece → Bool
  | .char c => decide (¬ c < ' ')
  | .unit _ => false

/-- A string that is written without units. -/
def Text.isPlain (text : Text) : Bool := text.all Piece.isPlain

theorem scanText?_plain {c : Char} (noQuote : c ≠ '"') (noEscape : c ≠ '\\') (visible : ¬ c < ' ')
    (done : Text) (rest : List Char) : scanText? done (c :: rest) = scanText? (.char c :: done) rest := by
  rw [scanText?.eq_def]
  split
  next same => cases same
  next same => exact absurd (List.cons.inj same).1 noQuote
  next same => exact absurd (List.cons.inj same).1 noEscape
  next same => exact absurd (List.cons.inj same).1 noEscape
  next same =>
    obtain ⟨rfl, rfl⟩ := List.cons.inj same
    rw [if_neg visible]

/-- A piece is read back. -/
theorem scanText?_piece {piece : Piece} (plain : piece.isPlain) (done : Text) (rest : List Char) :
    scanText? done (piece.render ++ rest) = scanText? (piece :: done) rest := by
  unfold Piece.render
  split
  next => rfl
  next => rfl
  next c noQuote noEscape =>
    have visible : ¬ c < ' ' := of_decide_eq_true plain
    rw [if_neg visible]
    exact scanText?_plain (fun same => noQuote (by rw [same])) (fun same => noEscape (by rw [same]))
      visible done rest
  next => cases plain

/-- **A string is scanned back**, piece by piece. -/
theorem scanText?_render {text : Text} (plain : text.isPlain) (done : Text) (behind : List Char) :
    scanText? done (text.flatMap Piece.render ++ '"' :: behind) =
      some (done.reverse ++ text, behind) := by
  induction text generalizing done with
  | nil =>
    show scanText? done ('"' :: behind) = _
    rw [scanText?, List.append_nil]
  | cons piece rest ih =>
    have parts : piece.isPlain = true ∧ Text.isPlain rest = true := by
      rwa [Text.isPlain, List.all_cons, Bool.and_eq_true] at plain
    rw [List.flatMap_cons, List.append_assoc, scanText?_piece parts.1, ih parts.2, List.reverse_cons,
      List.append_assoc]
    rfl

end Json

end Utxo
