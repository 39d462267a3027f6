/-
**Blocks, their byte form and their identifiers.**

* `BlockHeader`, `Block` and their `Wire` instances.
* `BlockHeader.hash`, `Block.hash`: the double digests of the byte forms.
* `Block.merkle`: the Merkle tree over the transactions' identifiers; `Block.commits` compares its
  root with the header's. A block without transactions has no tree.
* `Block.assemble`: a block for a list of transactions, with the root and the size filled in.
-/

import Utxo.Ledger.Transaction
import Utxo.Ledger.Merkle
import Utxo.Error

namespace Utxo

/-- The head of a block. -/
structure BlockHeader where
  version : Int32
  prevBlock : Hash
  merkleRoot : Hash
  timestamp : Int64
  target : Int32
  nonce : Int32
deriving DecidableEq

/-- A block; its stated size is for information only. -/
structure Block where
  size : Int32
  header : BlockHeader
  transactions : List Transaction
deriving DecidableEq

namespace BlockHeader

/-- The fields in order. -/
def encode (header : BlockHeader) : Bytes :=
  LittleEndian.ofInt32 header.version ++ header.prevBlock.toBytes ++ header.merkleRoot.toBytes ++
    LittleEndian.ofInt64 header.timestamp ++ LittleEndian.ofInt32 header.target ++
    LittleEndian.ofInt32 header.nonce

/-- Reads the fields in order. -/
def decoder : Decoder BlockHeader := do
  return ⟨← Decoder.int32, ← Decoder.hash, ← Decoder.hash, ← Decoder.int64, ← Decoder.int32,
    ← Decoder.int32⟩

instance : Wire BlockHeader := ⟨encode, decoder⟩

/-- The identifier of a header. -/
def hash (header : BlockHeader) : Hash := doubleSha256 header.encode

end BlockHeader

namespace Block

/-- The fields in order, the transactions behind their number. -/
def encode (block : Block) : Bytes :=
  LittleEndian.ofInt32 block.size ++ block.header.encode ++ Wire.encodeList block.transactions

/-- Reads the fields in order, the lengths of lists by the rule `count`. -/
def decoderWith (count : CountRule) : Decoder Block := do
  return ⟨← Decoder.int32, ← BlockHeader.decoder,
    ← Wire.decodeList (count Transaction.minSize) (Transaction.decoderWith count)⟩

/-- Reads a block; a list that cannot fit into what lies ahead is refused at its count. -/
def decoder : Decoder Block := decoderWith Decoder.count

instance : Wire Block := ⟨encode, decoder⟩

/-- The identifier of a block, which covers its whole byte form. -/
def hash (block : Block) : Hash := doubleSha256 block.encode

/-- The identifiers of the transactions, in order. -/
def transactionIds (block : Block) : List Hash := block.transactions.map Transaction.id

/-- The Merkle tree over identifiers; without any there is none. -/
def treeOver (ids : List Hash) : Except Error MerkleTree :=
  match MerkleTree.ofLeaves? ids with
  | some tree => .ok tree
  | none => .error .emptyBlock

/-- The Merkle tree over the transactions. -/
def merkle (block : Block) : Except Error MerkleTree := treeOver block.transactionIds

/-- Whether the header commits to these transactions. -/
def commits (block : Block) : Except Error Bool :=
  (fun tree => tree.root = block.header.merkleRoot) <$> block.merkle

/-- The largest size that the size field can state. -/
def maxStatedSize : Nat := Int32.maxValue.toInt.toNat

/-- The block with its size stated, as far as the field can. -/
def withStatedSize (block : Block) : Block :=
  { block with size := Int32.ofNat (min block.encode.length maxStatedSize) }

/-- A block of these transactions, its root and its size filled in. -/
def assemble (header : BlockHeader) (transactions : List Transaction) : Except Error Block := do
  let tree ← treeOver (transactions.map Transaction.id)
  return withStatedSize ⟨0, { header with merkleRoot := tree.root }, transactions⟩

end Block

end Utxo
