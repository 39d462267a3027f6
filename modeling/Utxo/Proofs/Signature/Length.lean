/-
**The length of signatures.**

Both numbers of a signature that is made are below the order of the curve, so each is written in 33 bytes
at most.

* `Signature.Reduced`: the two numbers are scalars; `Ecdsa.sign_reduced`: those of a signature that is
  made are, whichever candidate was taken.
* `Der.length_encode_le`: such a signature has 72 bytes at most; `Key.length_sign_le`: so has each that
  a key makes.
-/

import Utxo.Key.Basic
import Utxo.Proofs.Numeral.Radix
import Utxo.Signature.Ecdsa

namespace Utxo

open Curve

/-! ### The numbers of a signature -/

/-- Both numbers are below the order of the curve. -/
structure Signature.Reduced (signature : Signature) : Prop where
  r_lt : signature.r < order
  s_lt : signature.s < order

theorem Signature.Reduced.normalize {signature : Signature} (reduced : signature.Reduced) :
    signature.normalize.Reduced := by
  unfold Signature.normalize
  split
  next large =>
    have lower : order - signature.s < order :=
      Nat.sub_lt (Nat.zero_lt_of_lt reduced.s_lt) (Nat.zero_lt_of_lt large)
    exact ⟨reduced.r_lt, lower⟩
  next => exact reduced

/-- What is found was accepted. -/
theorem Nonce.exists_accept_of_first? {α : Type} {accept : Nat → Option α} {result : α}
    (attempts : Nat) (state : Nonce) (found : Nonce.first? accept attempts state = some result) :
    ∃ candidate, accept candidate = some result := by
  induction attempts generalizing state with
  | zero => cases found
  | succ attempts ih =>
    rw [Nonce.first?] at found
    cases accepted : accept (BigEndian.decode state.draw.value) with
    | some other =>
      rw [accepted] at found
      exact ⟨_, accepted.trans found⟩
    | none =>
      rw [accepted] at found
      exact ih _ found

namespace Ecdsa

theorem signWith?_reduced {secret : SecretKey} {digest : Hash} {nonce : Nat} {signature : Signature}
    (made : signWith? secret digest nonce = some signature) : signature.Reduced := by
  have positive : 0 < order := by decide
  unfold signWith? at made
  split at made
  next => cases made
  next =>
    obtain ⟨point, _, made⟩ := Option.bind_eq_some_iff.mp made
    dsimp only at made
    split at made
    next => cases made
    next =>
      cases made
      exact Signature.Reduced.normalize ⟨Nat.mod_lt _ positive, Nat.mod_lt _ positive⟩

/-- **The numbers of every signature are below the order.** -/
theorem sign_reduced (secret : SecretKey) (digest : Hash) : (sign secret digest).Reduced := by
  unfold sign
  cases found : Nonce.first? (signWith? secret digest) attempts (Nonce.start secret digest) with
  | some signature =>
    obtain ⟨nonce, made⟩ := Nonce.exists_accept_of_first? _ _ found
    exact signWith?_reduced made
  | none => exact ⟨by decide, by decide⟩

end Ecdsa

/-! ### Their bytes -/

namespace Der

/-- A scalar has 32 digits at most, and a zero in front of them if the first has its high bit set. -/
theorem length_integerContent_le {number : Nat} (small : number < order) :
    (integerContent number).length ≤ 33 := by
  have large : order < Nat.pow 256 32 := by decide +kernel
  have digits : ((Radix.digits 256 number).map UInt8.ofNat).length ≤ 32 := by
    rw [List.length_map]
    exact Radix.length_digits_le (by decide) (Nat.lt_trans small large)
  unfold integerContent
  dsimp only
  split
  next => omega
  next =>
    rw [List.length_cons]
    omega

theorem length_encode_le {signature : Signature} (reduced : signature.Reduced) :
    (encode signature).length ≤ 72 := by
  have r := length_integerContent_le reduced.r_lt
  have s := length_integerContent_le reduced.s_lt
  simp only [encode, encodeInteger, List.length_cons, List.length_append]
  omega

end Der

/-- **A key makes signatures of 72 bytes at most.** -/
theorem Key.length_sign_le (key : Key) (digest : Hash) : (key.sign digest).length ≤ 72 :=
  Der.length_encode_le (Ecdsa.sign_reduced key.secret digest)

end Utxo
