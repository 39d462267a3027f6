/-
**RIPEMD-160.**

Two lines of 80 steps read the sixteen words of a block in different orders and with different
mixing functions; their results are added crosswise to the state of five words.

* `Ripemd160.step`: one step of a line; `Ripemd160.Line`: the plan that a line follows.
* `Ripemd160.compress`: one block through both lines.
* `Ripemd160.hash`: the digest, 20 bytes.
-/

import Utxo.Bytes.LittleEndian

namespace Utxo.Ripemd160

/-- The five words that the steps work on. -/
structure State where
  a : UInt32
  b : UInt32
  c : UInt32
  d : UInt32
  e : UInt32
deriving DecidableEq, Repr

/-- The state before the first block. -/
def initial : State := ⟨0x67452301, 0xefcdab89, 0x98badcfe, 0x10325476, 0xc3d2e1f0⟩

/-- Rotation of a word to the left. -/
def rotateLeft (word : UInt32) (amount : UInt32) : UInt32 :=
  (word <<< amount) ||| (word >>> (32 - amount))

/-- The mixing functions, in the order of the left line. -/
inductive Mixing
  | parity
  | choice
  | orNot
  | choiceBack
  | notOr
deriving DecidableEq, Repr

/-- The mixing of three words. -/
def Mixing.apply : Mixing → UInt32 → UInt32 → UInt32 → UInt32
  | .parity, x, y, z => x ^^^ y ^^^ z
  | .choice, x, y, z => (x &&& y) ||| (~~~x &&& z)
  | .orNot, x, y, z => (x ||| ~~~y) ^^^ z
  | .choiceBack, x, y, z => (x &&& z) ||| (y &&& ~~~z)
  | .notOr, x, y, z => x ^^^ (y ||| ~~~z)

/-- What a line does in its 80 steps: a mixing function and a constant for each sixteen, a word of
the block and a rotation for each one. -/
structure Line where
  groups : List (Mixing × UInt32)
  order : List Nat
  rotations : List UInt32

/-- The left line. -/
def left : Line where
  groups := [(.parity, 0x00000000), (.choice, 0x5a827999), (.orNot, 0x6ed9eba1),
    (.choiceBack, 0x8f1bbcdc), (.notOr, 0xa953fd4e)]
  order := [0, 1, 2, 3, 4, 5, 6, 7, 8, 9, 10, 11, 12, 13, 14, 15,
    7, 4, 13, 1, 10, 6, 15, 3, 12, 0, 9, 5, 2, 14, 11, 8,
    3, 10, 14, 4, 9, 15, 8, 1, 2, 7, 0, 6, 13, 11, 5, 12,
    1, 9, 11, 10, 0, 8, 12, 4, 13, 3, 7, 15, 14, 5, 6, 2,
    4, 0, 5, 9, 7, 12, 2, 10, 14, 1, 3, 8, 11, 6, 15, 13]
  rotations := [11, 14, 15, 12, 5, 8, 7, 9, 11, 13, 14, 15, 6, 7, 9, 8,
    7, 6, 8, 13, 11, 9, 7, 15, 7, 12, 15, 9, 11, 7, 13, 12,
    11, 13, 6, 7, 14, 9, 13, 15, 14, 8, 13, 6, 5, 12, 7, 5,
    11, 12, 14, 15, 14, 15, 9, 8, 9, 14, 5, 6, 8, 6, 5, 12,
    9, 15, 5, 11, 6, 8, 13, 12, 5, 12, 13, 14, 11, 8, 5, 6]

/-- The right line. -/
def right : Line where
  groups := [(.notOr, 0x50a28be6), (.choiceBack, 0x5c4dd124), (.orNot, 0x6d703ef3),
    (.choice, 0x7a6d76e9), (.parity, 0x00000000)]
  order := [5, 14, 7, 0, 9, 2, 11, 4, 13, 6, 15, 8, 1, 10, 3, 12,
    6, 11, 3, 7, 0, 13, 5, 10, 14, 15, 8, 12, 4, 9, 1, 2,
    15, 5, 1, 3, 7, 14, 6, 9, 11, 8, 12, 2, 10, 0, 4, 13,
    8, 6, 4, 1, 3, 11, 15, 0, 5, 12, 2, 13, 9, 7, 10, 14,
    12, 15, 10, 4, 1, 5, 8, 7, 6, 2, 13, 14, 0, 3, 9, 11]
  rotations := [8, 9, 9, 11, 13, 15, 15, 5, 7, 7, 8, 11, 14, 14, 12, 6,
    9, 13, 15, 7, 12, 8, 9, 11, 7, 7, 12, 7, 6, 15, 13, 11,
    9, 7, 15, 11, 8, 6, 6, 14, 12, 13, 5, 14, 13, 13, 7, 5,
    15, 5, 8, 11, 14, 14, 6, 14, 6, 9, 12, 9, 12, 5, 15, 8,
    8, 5, 12, 9, 12, 5, 14, 6, 8, 13, 6, 5, 15, 13, 11, 11]

/-- What one step needs. -/
structure Step where
  mixing : Mixing
  constant : UInt32
  word : Nat
  rotation : UInt32

/-- The 80 steps of a line. -/
def Line.steps (line : Line) : List Step :=
  let perGroup := line.groups.flatMap fun group => List.replicate 16 group
  (perGroup.zip (line.order.zip line.rotations)).map fun (group, word, rotation) =>
    ⟨group.1, group.2, word, rotation⟩

/-- One step on a block of sixteen words. -/
def step (block : List UInt32) (state : State) (plan : Step) : State :=
  let mixed := state.a + plan.mixing.apply state.b state.c state.d + block.getD plan.word 0 +
    plan.constant
  ⟨state.e, rotateLeft mixed plan.rotation + state.e, state.b, rotateLeft state.c 10, state.d⟩

/-- Stirs a block of sixteen words into the state. -/
def compress (state : State) (block : List UInt32) : State :=
  let l := left.steps.foldl (step block) state
  let r := right.steps.foldl (step block) state
  ⟨state.b + l.c + r.d, state.c + l.d + r.e, state.d + l.e + r.a, state.e + l.a + r.b,
    state.a + l.b + r.c⟩

/-- The words of a byte string, four bytes each, least significant byte first. -/
def words : Bytes → List UInt32
  | first :: second :: third :: fourth :: rest =>
    (first.toUInt32 ||| (second.toUInt32 <<< 8) ||| (third.toUInt32 <<< 16) |||
      (fourth.toUInt32 <<< 24)) :: words rest
  | _ => []

/-- Stirs in the next `count` blocks of the padded message. -/
def absorb : Nat → State → Bytes → State
  | 0, state, _ => state
  | count + 1, state, message =>
    absorb count (compress state (words (message.take 64))) (message.drop 64)

/-- The message in whole blocks: behind it the byte `80`, zeros, and its length in bits. -/
def pad (message : Bytes) : Bytes :=
  let length := message.length
  let zeros := (119 - length % 64) % 64
  message ++ (0x80 :: List.replicate zeros 0) ++ LittleEndian.encode 8 (8 * length)

/-- The words of the state, one after another. -/
def State.toBytes (state : State) : Bytes :=
  LittleEndian.ofUInt32 state.a ++ LittleEndian.ofUInt32 state.b ++
    LittleEndian.ofUInt32 state.c ++ LittleEndian.ofUInt32 state.d ++
    LittleEndian.ofUInt32 state.e

/-- The digest of a message. -/
def hash (message : Bytes) : FixedBytes 20 :=
  let padded := pad message
  ⟨(absorb (padded.length / 64) initial padded).toBytes, by simp [State.toBytes]⟩

end Utxo.Ripemd160
