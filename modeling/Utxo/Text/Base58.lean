/-
**Byte strings as base-58 text.**

The bytes are the digits of one number in base 256, the text its digits in base 58; each leading
zero byte, which the number does not show, is one leading `1`. The alphabet leaves out `0`, `O`,
`I` and `l`.

* `Base58.encode` and `Base58.decode`.
* `Base58.Fault`: the first character that is not ASCII or not in the alphabet.
-/

import Utxo.Bytes.Basic
import Utxo.Numeral.Radix
import Utxo.Text.Character

namespace Utxo.Base58

/-- Why a text is not base-58. -/
inductive Fault
  | notAscii (position : Nat)
  | notInAlphabet (character : Char) (position : Nat)
deriving DecidableEq, Repr

/-- Positions are byte offsets. -/
def Fault.message : Fault → String
  | .notAscii position =>
    s!"provided string contained non-ascii character starting at byte {position}"
  | .notInAlphabet character position =>
    s!"provided string contained invalid character {Character.quoted character} at byte {position}"

/-- The digits, by value. -/
def alphabet : List Char :=
  "123456789ABCDEFGHJKLMNPQRSTUVWXYZabcdefghijkmnopqrstuvwxyz".toList

/-- The character of a digit. -/
def digit (number : Nat) : Char := alphabet.getD number '1'

/-- The value of a character of the alphabet. -/
def digit? (c : Char) : Option Nat := alphabet.idxOf? c

/-- The digits of a text. All characters before a bad one are ASCII, so their count is its byte
offset. -/
def digitsOf (position : Nat) : List Char → Except Fault (List Nat)
  | [] => .ok []
  | c :: rest =>
    if 127 < c.toNat then .error (.notAscii position)
    else match digit? c with
      | none => .error (.notInAlphabet c position)
      | some number => return number :: (← digitsOf (position + 1) rest)

/-- The number of leading zeros. -/
def leadingZeros (digits : List Nat) : Nat := (digits.takeWhile (· == 0)).length

/-- Writes a numeral of one base in another, with as many leading zeros. -/
def rebase (source target : Nat) (digits : List Nat) : List Nat :=
  List.replicate (leadingZeros digits) 0 ++ Radix.digits target (Radix.value source digits)

/-- Base-58 text of a byte string. -/
def encode (bytes : Bytes) : String :=
  String.ofList ((rebase 256 58 (bytes.map UInt8.toNat)).map digit)

/-- The byte string that a base-58 text denotes. -/
def decode (text : String) : Except Fault Bytes := do
  let digits ← digitsOf 0 text.toList
  return (rebase 58 256 digits).map UInt8.ofNat

end Utxo.Base58
