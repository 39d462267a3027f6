/-
**Merkle trees over a list of digests.**

The nodes of a row are paired from the left, an odd one with the zero digest, and the double digests
of the pairs are the row above; a single digest is paired too. The row of one node is the root.

* `MerkleTree.pairUp`: the row above a row.
* `MerkleTree.ofLeaves?`: the root and all inner nodes, row by row; only the empty list has none.
-/

import Utxo.Hash.Digest

namespace Utxo

/-- The root, and every inner node in the order in which the rows are computed; the root comes
last. -/
structure MerkleTree where
  root : Hash
  path : List Hash
deriving DecidableEq

namespace MerkleTree

/-- The row above a row. -/
def pairUp : List Hash → List Hash
  | [] => []
  | [last] => [doubleSha256Pair last (FixedBytes.zero 32)]
  | left :: right :: rest => doubleSha256Pair left right :: pairUp rest

/-- Each row has half as many nodes as the one below it, rounded up. -/
@[simp] theorem length_pairUp (row : List Hash) : (pairUp row).length = (row.length + 1) / 2 := by
  fun_induction pairUp row with
  | case1 => rfl
  | case2 => simp
  | case3 left right rest ih =>
    simp only [List.length_cons, ih]
    omega

/-- The tree over a row of leaves. -/
def ofLeaves? (leaves : List Hash) : Option MerkleTree :=
  match _row : pairUp leaves with
  | [] => none
  | [root] => some ⟨root, [root]⟩
  | first :: second :: rest =>
    (ofLeaves? (first :: second :: rest)).map fun tree =>
      ⟨tree.root, first :: second :: rest ++ tree.path⟩
termination_by leaves.length
decreasing_by
  have length := congrArg List.length _row
  simp only [length_pairUp, List.length_cons] at length
  simp only [List.length_cons]
  omega

end MerkleTree

end Utxo
