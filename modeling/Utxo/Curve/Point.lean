/-
**The curve `y² = x³ + 7` over a prime field of 256 bits (secp256k1).**

* `Curve.fieldPrime`, `Curve.order`: the field's characteristic and the order of the generator.
* `Jacobian`: a point `(x / z², y / z³)`, for sums without divisions; `z = 0` is the point at
  infinity. `Jacobian.double`, `Jacobian.add`, `Jacobian.multiply`.
* `Point`: a point other than infinity. `Point.compress` and `Point.ofCompressed?` are its form in
  33 bytes: the parity of `y`, then `x`.
-/

import Utxo.Bytes.BigEndian
import Utxo.Numeral.Modular

namespace Utxo

namespace Curve

/-- The characteristic of the field. -/
def fieldPrime : Nat := 0xfffffffffffffffffffffffffffffffffffffffffffffffffffffffefffffc2f

/-- The order of the generator. -/
def order : Nat := 0xfffffffffffffffffffffffffffffffebaaedce6af48a03bbfd25e8cd0364141

/-- The right side of the curve's equation. -/
def rightSide (x : Nat) : Nat := (x * x * x + 7) % fieldPrime

end Curve

open Curve

/-- A point `(x / z², y / z³)`; `z = 0` is the point at infinity. Coordinates are reduced. -/
structure Jacobian where
  x : Nat
  y : Nat
  z : Nat

/-- A point of the plane, by its reduced coordinates. -/
structure Point where
  x : Nat
  y : Nat
deriving DecidableEq

namespace Jacobian

/-- The neutral element. -/
def infinity : Jacobian := ⟨1, 1, 0⟩

/-- A finite point. -/
def ofPoint (point : Point) : Jacobian := ⟨point.x, point.y, 1⟩

/-- The finite point, if it is one. -/
def toPoint? (point : Jacobian) : Option Point :=
  if point.z = 0 then none
  else
    let inverse := Modular.inverse fieldPrime point.z
    let square := inverse * inverse % fieldPrime
    some ⟨point.x * square % fieldPrime, point.y * (square * inverse % fieldPrime) % fieldPrime⟩

/-- A point added to itself. -/
def double (point : Jacobian) : Jacobian :=
  let squareY := point.y * point.y % fieldPrime
  let chord := 4 * point.x * squareY % fieldPrime
  let slope := 3 * point.x * point.x % fieldPrime
  let x := Modular.sub fieldPrime (slope * slope % fieldPrime) (2 * chord % fieldPrime)
  let y := Modular.sub fieldPrime (slope * Modular.sub fieldPrime chord x % fieldPrime)
    (8 * squareY * squareY % fieldPrime)
  ⟨x, y, 2 * point.y * point.z % fieldPrime⟩

/-- The sum of two points. -/
def add (first second : Jacobian) : Jacobian :=
  if first.z = 0 then second
  else if second.z = 0 then first
  else
    let squareFirst := first.z * first.z % fieldPrime
    let squareSecond := second.z * second.z % fieldPrime
    let xFirst := first.x * squareSecond % fieldPrime
    let xSecond := second.x * squareFirst % fieldPrime
    let yFirst := first.y * (squareSecond * second.z % fieldPrime) % fieldPrime
    let ySecond := second.y * (squareFirst * first.z % fieldPrime) % fieldPrime
    if xFirst = xSecond then
      if yFirst = ySecond then double first else infinity
    else
      let run := Modular.sub fieldPrime xSecond xFirst
      let rise := Modular.sub fieldPrime ySecond yFirst
      let runSquare := run * run % fieldPrime
      let runCube := runSquare * run % fieldPrime
      let chord := xFirst * runSquare % fieldPrime
      let x := Modular.sub fieldPrime (rise * rise % fieldPrime)
        ((runCube + 2 * chord) % fieldPrime)
      let y := Modular.sub fieldPrime (rise * Modular.sub fieldPrime chord x % fieldPrime)
        (yFirst * runCube % fieldPrime)
      ⟨x, y, run * (first.z * second.z % fieldPrime) % fieldPrime⟩

/-- A multiple of a point, by doubling once for each bit of the factor, from the highest. -/
def multiply (factor : Nat) (point : Jacobian) : Jacobian :=
  (List.range (factor.log2 + 1)).foldr
    (fun place sum =>
      let twice := double sum
      if factor.testBit place then add twice point else twice)
    infinity

end Jacobian

namespace Point

/-- The generator. -/
def generator : Point where
  x := 0x79be667ef9dcbbac55a06295ce870b07029bfcdb2dce28d959f2815b16f81798
  y := 0x483ada7726a3c4655da4fbfc0e1108a8fd17b448a68554199c47d08ffb10d4b8

/-- The length of the compressed form. -/
def compressedLength : Nat := 33

/-- The parity of `y` as `02` or `03`, then `x`. -/
def compress (point : Point) : FixedBytes compressedLength :=
  ⟨(if point.y % 2 = 0 then 2 else 3) :: BigEndian.encode 32 point.x, by
    simp [compressedLength]⟩

/-- The point above `x` whose `y` has the parity, if the curve has one. Roots are powers, as the
characteristic leaves the remainder 3 modulo 4. -/
def above? (x parity : Nat) : Option Point :=
  if fieldPrime ≤ x then none
  else
    let root := Modular.power fieldPrime (rightSide x) ((fieldPrime + 1) / 4)
    if root * root % fieldPrime ≠ rightSide x then none
    else if root % 2 = parity then some ⟨x, root⟩ else some ⟨x, fieldPrime - root⟩

/-- The point in 33 bytes. -/
def ofCompressed? (bytes : Bytes) : Option Point :=
  match bytes with
  | first :: x =>
    if x.length = 32 ∧ (first = 2 ∨ first = 3) then
      above? (BigEndian.decode x) (first.toNat % 2)
    else none
  | [] => none

end Point

end Utxo
