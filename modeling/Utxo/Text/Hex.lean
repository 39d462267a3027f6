/-
**Byte strings as hexadecimal text: two digits a byte, the high digit first.**

* `Hex.encode` writes lowercase; `Hex.decode` takes digits of either case.
* `Hex.Fault`: an odd text length, measured in UTF-8 bytes and looked at first; the first character
  that is no digit; a length that the reader of the bytes cannot use.
-/

import Utxo.Bytes.Basic
import Utxo.Text.Character

namespace Utxo.Hex

/-- Why a text is not the hexadecimal form of what was asked for. -/
inductive Fault
  | oddLength
  | badCharacter (byte : UInt8) (position : Nat)
  | wrongLength
deriving DecidableEq, Repr

/-- A bad character is shown by its first UTF-8 byte. -/
def Fault.message : Fault → String
  | .oddLength => "Odd number of digits"
  | .badCharacter byte position =>
    s!"Invalid character {Character.quoted (Char.ofNat byte.toNat)} at position {position}"
  | .wrongLength => "Invalid string length"

/-- The lowercase digit of a number below sixteen. -/
def digit (number : Nat) : Char :=
  if number < 10 then Char.ofNat (48 + number) else Char.ofNat (87 + number)

/-- The number of a digit of either case. -/
def digit? (c : Char) : Option Nat :=
  if '0' ≤ c ∧ c ≤ '9' then some (c.toNat - 48)
  else if 'a' ≤ c ∧ c ≤ 'f' then some (c.toNat - 87)
  else if 'A' ≤ c ∧ c ≤ 'F' then some (c.toNat - 55)
  else none

/-- The digits of each byte in turn. -/
def encodeChars (bytes : Bytes) : List Char :=
  bytes.flatMap fun byte => [digit (byte.toNat / 16), digit (byte.toNat % 16)]

/-- Lowercase hexadecimal text. -/
def encode (bytes : Bytes) : String := String.ofList (encodeChars bytes)

/-- The number of the digit that stands at `position`. -/
def digitAt (position : Nat) (c : Char) : Except Fault Nat :=
  match digit? c with
  | some number => .ok number
  | none => .error (.badCharacter (Character.leadingByte c) position)

/-- Reads digits in pairs. A digit without a partner cannot occur behind the length check. All
characters before a bad one are digits of one byte each, so their count is its byte offset. -/
def decodePairs : Nat → Bytes → List Char → Except Fault Bytes
  | _, done, [] => .ok done.reverse
  | position, _, [alone] => do
    let _ ← digitAt position alone
    .error .oddLength
  | position, done, high :: low :: rest => do
    let upper ← digitAt position high
    let lower ← digitAt (position + 1) low
    decodePairs (position + 2) (UInt8.ofNat (16 * upper + lower) :: done) rest

/-- The bytes that a hexadecimal text denotes. -/
def decode (text : String) : Except Fault Bytes :=
  if text.utf8ByteSize % 2 = 1 then .error .oddLength else decodePairs 0 [] text.toList

/-- The `n` bytes that a hexadecimal text denotes. -/
def decodeFixed (n : Nat) (text : String) : Except Fault (FixedBytes n) := do
  match FixedBytes.ofBytes? (← decode text) with
  | some value => .ok value
  | none => .error .wrongLength

end Utxo.Hex
