/-
**Signatures as bytes: the distinguished encoding of two integers.**

A sequence `30`, its length, and two integers `02`, length, content; contents are in big-endian
two's complement of the least length.

* `Der.encode` writes two natural numbers.
* `Der.decode?` reads two integers. One that is negative or that no scalar of the curve can equal
  counts as zero, so that such a signature is well formed and verifies nothing.
-/

import Utxo.Curve.Point
import Utxo.Numeral.Radix

namespace Utxo

/-- The two numbers of a signature. -/
structure Signature where
  r : Nat
  s : Nat
deriving DecidableEq, Repr

namespace Der

/-- The least bytes that show a natural number as not negative. -/
def integerContent (number : Nat) : Bytes :=
  let digits := (Radix.digits 256 number).map UInt8.ofNat
  if digits.headD 0x80 < 0x80 then digits else 0 :: digits

/-- An integer behind its tag and length. -/
def encodeInteger (number : Nat) : Bytes :=
  let content := integerContent number
  0x02 :: UInt8.ofNat content.length :: content

/-- The byte form of a signature whose numbers are scalars. -/
def encode (signature : Signature) : Bytes :=
  let content := encodeInteger signature.r ++ encodeInteger signature.s
  0x30 :: UInt8.ofNat content.length :: content

/-- A length, and what stands behind it. Up to 127 it is one byte; above, the count of the bytes
that follow with the high bit set, and the length in the fewest bytes. -/
def decodeLength? : Bytes → Option (Nat × Bytes)
  | [] => none
  | first :: rest =>
    if first < 0x80 then some (first.toNat, rest)
    else
      let count := first.toNat - 0x80
      let length := BigEndian.decode (rest.take count)
      if 1 ≤ count ∧ count ≤ 8 ∧ count ≤ rest.length ∧ rest.headD 0 ≠ 0 ∧ 128 ≤ length then
        some (length, rest.drop count)
      else none

/-- Whether an integer's content is longer than it needs to be. -/
def isPadded : Bytes → Bool
  | first :: second :: _ =>
    (first == 0x00 && second < 0x80) || (first == 0xff && 0x80 ≤ second)
  | _ => false

/-- The scalar that an integer's content denotes; zero for one that is out of range. -/
def scalar (content : Bytes) : Nat :=
  let value := BigEndian.decode content
  if 0x80 ≤ content.headD 0 ∨ Curve.order ≤ value then 0 else value

/-- An integer, and what stands behind it. -/
def decodeInteger? : Bytes → Option (Nat × Bytes)
  | 0x02 :: rest => do
    let (length, body) ← decodeLength? rest
    let content := body.take length
    if length = 0 ∨ body.length < length ∨ isPadded content then none
    else some (scalar content, body.drop length)
  | _ => none

/-- The signature in a byte string that holds nothing else. -/
def decode? : Bytes → Option Signature
  | 0x30 :: rest => do
    let (length, body) ← decodeLength? rest
    if length ≠ body.length then none
    else
      let (r, body) ← decodeInteger? body
      let (s, body) ← decodeInteger? body
      if body.isEmpty then some ⟨r, s⟩ else none
  | _ => none

end Der

end Utxo
