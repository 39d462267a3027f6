/-
**Decimal numerals.**

* `Decimal.render`: the digits of a number, without a leading zero; `0` for zero.
* `Decimal.isDigit`, `Decimal.value`: digits and the number that they denote.
-/

import Utxo.Numeral.Radix

namespace Utxo.Decimal

/-- Whether a character is one of the ten digits. -/
def isDigit (c : Char) : Bool := '0' ≤ c && c ≤ '9'

/-- The digit of a number below ten. -/
def digit (number : Nat) : Char := Char.ofNat (48 + number)

/-- The number of a digit. -/
def digitValue (c : Char) : Nat := c.toNat - 48

/-- The numeral of a number. -/
def render (number : Nat) : List Char :=
  if number = 0 then ['0'] else (Radix.digits 10 number).map digit

/-- The number that digits denote. -/
def value (digits : List Char) : Nat := Radix.value 10 (digits.map digitValue)

end Utxo.Decimal
