/-
**Arithmetic modulo a number.**

* `Modular.sub`, `Modular.power`, `Modular.inverse`: all results are reduced. The inverse is taken
  by Fermat's little theorem, so the modulus has to be prime.
-/

namespace Utxo.Modular

/-- The difference of two reduced numbers. -/
def sub (modulus minuend subtrahend : Nat) : Nat := (minuend + modulus - subtrahend) % modulus

/-- A power, by squaring once for each bit of the exponent, from the highest. -/
def power (modulus base exponent : Nat) : Nat :=
  (List.range (exponent.log2 + 1)).foldr
    (fun place result =>
      let square := result * result % modulus
      if exponent.testBit place then square * base % modulus else square)
    1

/-- The inverse modulo a prime; zero has none and yields zero. -/
def inverse (modulus number : Nat) : Nat := power modulus number (modulus - 2)

end Utxo.Modular
