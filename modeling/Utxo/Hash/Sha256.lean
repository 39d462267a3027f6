/-
**SHA-256.**

A message is padded to whole blocks of 64 bytes; each block is stretched to a schedule of 64 words
and stirred into a state of eight words in 64 rounds; the last state is the digest.

* `Sha256.schedule`, `Sha256.round`, `Sha256.compress`: one block.
* `Sha256.pad`: the message, the byte `80`, zeros, and the message's length in bits in eight bytes.
* `Sha256.hash`: the digest, 32 bytes.
-/

import Utxo.Bytes.BigEndian

namespace Utxo.Sha256

/-- The eight words that the rounds work on. -/
structure State where
  a : UInt32
  b : UInt32
  c : UInt32
  d : UInt32
  e : UInt32
  f : UInt32
  g : UInt32
  h : UInt32
deriving DecidableEq, Repr

/-- The state before the first block. -/
def initial : State :=
  ⟨0x6a09e667, 0xbb67ae85, 0x3c6ef372, 0xa54ff53a,
    0x510e527f, 0x9b05688c, 0x1f83d9ab, 0x5be0cd19⟩

/-- One word for each round. -/
def constants : List UInt32 :=
  [0x428a2f98, 0x71374491, 0xb5c0fbcf, 0xe9b5dba5, 0x3956c25b, 0x59f111f1,
    0x923f82a4, 0xab1c5ed5, 0xd807aa98, 0x12835b01, 0x243185be, 0x550c7dc3,
    0x72be5d74, 0x80deb1fe, 0x9bdc06a7, 0xc19bf174, 0xe49b69c1, 0xefbe4786,
    0x0fc19dc6, 0x240ca1cc, 0x2de92c6f, 0x4a7484aa, 0x5cb0a9dc, 0x76f988da,
    0x983e5152, 0xa831c66d, 0xb00327c8, 0xbf597fc7, 0xc6e00bf3, 0xd5a79147,
    0x06ca6351, 0x14292967, 0x27b70a85, 0x2e1b2138, 0x4d2c6dfc, 0x53380d13,
    0x650a7354, 0x766a0abb, 0x81c2c92e, 0x92722c85, 0xa2bfe8a1, 0xa81a664b,
    0xc24b8b70, 0xc76c51a3, 0xd192e819, 0xd6990624, 0xf40e3585, 0x106aa070,
    0x19a4c116, 0x1e376c08, 0x2748774c, 0x34b0bcb5, 0x391c0cb3, 0x4ed8aa4a,
    0x5b9cca4f, 0x682e6ff3, 0x748f82ee, 0x78a5636f, 0x84c87814, 0x8cc70208,
    0x90befffa, 0xa4506ceb, 0xbef9a3f7, 0xc67178f2]

/-- Rotation of a word to the right. -/
def rotateRight (word : UInt32) (amount : UInt32) : UInt32 :=
  (word >>> amount) ||| (word <<< (32 - amount))

/-- The word that follows a schedule of at least sixteen words, which is kept newest word first: it
mixes the words that are 2, 7, 15 and 16 places back. -/
def nextWord : List UInt32 → UInt32
  | _ :: near :: _ :: _ :: _ :: _ :: middle :: _ :: _ :: _ :: _ :: _ :: _ :: _ :: far :: last :: _ =>
    let stirNear := rotateRight near 17 ^^^ rotateRight near 19 ^^^ (near >>> 10)
    let stirFar := rotateRight far 7 ^^^ rotateRight far 18 ^^^ (far >>> 3)
    last + stirFar + middle + stirNear
  | _ => 0

/-- Adds `count` words to a schedule that is kept newest word first. -/
def extend : Nat → List UInt32 → List UInt32
  | 0, recent => recent
  | count + 1, recent => extend count (nextWord recent :: recent)

/-- The 64 words that a block of sixteen is stretched to. -/
def schedule (block : List UInt32) : List UInt32 := (extend 48 block.reverse).reverse

/-- One round, with the constant and the schedule word of its place. -/
def round (state : State) (input : UInt32 × UInt32) : State :=
  let stirE := rotateRight state.e 6 ^^^ rotateRight state.e 11 ^^^ rotateRight state.e 25
  let choice := (state.e &&& state.f) ^^^ (~~~state.e &&& state.g)
  let added := state.h + stirE + choice + input.1 + input.2
  let stirA := rotateRight state.a 2 ^^^ rotateRight state.a 13 ^^^ rotateRight state.a 22
  let majority := (state.a &&& state.b) ^^^ (state.a &&& state.c) ^^^ (state.b &&& state.c)
  ⟨added + (stirA + majority), state.a, state.b, state.c, state.d + added, state.e, state.f, state.g⟩

/-- Word-by-word sum. -/
def State.add (first second : State) : State :=
  ⟨first.a + second.a, first.b + second.b, first.c + second.c, first.d + second.d,
    first.e + second.e, first.f + second.f, first.g + second.g, first.h + second.h⟩

/-- Stirs a block of sixteen words into the state. -/
def compress (state : State) (block : List UInt32) : State :=
  state.add ((constants.zip (schedule block)).foldl round state)

/-- The words of a byte string, four bytes each, most significant byte first. -/
def words : Bytes → List UInt32
  | first :: second :: third :: fourth :: rest =>
    ((first.toUInt32 <<< 24) ||| (second.toUInt32 <<< 16) ||| (third.toUInt32 <<< 8) |||
      fourth.toUInt32) :: words rest
  | _ => []

/-- Stirs in the next `count` blocks of the padded message. -/
def absorb : Nat → State → Bytes → State
  | 0, state, _ => state
  | count + 1, state, message =>
    absorb count (compress state (words (message.take 64))) (message.drop 64)

/-- The message in whole blocks. -/
def pad (message : Bytes) : Bytes :=
  let length := message.length
  let zeros := (119 - length % 64) % 64
  message ++ (0x80 :: List.replicate zeros 0) ++ BigEndian.encode 8 (8 * length)

/-- The four bytes of a word, most significant byte first. -/
def wordBytes (word : UInt32) : Bytes :=
  [(word >>> 24).toUInt8, (word >>> 16).toUInt8, (word >>> 8).toUInt8, word.toUInt8]

/-- The words of the state, one after another. -/
def State.toBytes (state : State) : Bytes :=
  wordBytes state.a ++ wordBytes state.b ++ wordBytes state.c ++ wordBytes state.d ++
    wordBytes state.e ++ wordBytes state.f ++ wordBytes state.g ++ wordBytes state.h

/-- The digest of a message. -/
def hash (message : Bytes) : FixedBytes 32 :=
  let padded := pad message
  ⟨(absorb (padded.length / 64) initial padded).toBytes, rfl⟩

end Utxo.Sha256
