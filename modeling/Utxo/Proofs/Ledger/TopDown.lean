/-
**Merkle trees from the top down.**

* `MerkleTree.width`: the number of nodes in a row, from the number of leaves;
  `MerkleTree.height_isLeast`: the rows end with the first that has one node.
* `MerkleTree.node`: a node by its level and its index, from the two nodes below it.
* `MerkleTree.node_eq_getD`: the rows hold these nodes, by induction on the level, and the zero digest
  stands behind the last; `MerkleTree.row_eq_map_node`: they hold no others.
* `Block.treeOver_topDown`: the tree that is computed row by row is the one that is read off from the
  root.
-/

import Mathlib.Algebra.Ring.Nat
import Mathlib.Data.List.GetD
import Mathlib.Order.Bounds.Defs
import Utxo.Ledger.Block
import Utxo.Proofs.Ledger.Merkle

namespace Utxo

namespace MerkleTree

/-! ### How many nodes there are -/

/-- The number of nodes so many levels above the leaves: half as many as one level below, rounded
up. -/
def width (count : Nat) : Nat → Nat
  | 0 => count
  | level + 1 => (width count level + 1) / 2

theorem length_row (leaves : List Hash) (level : Nat) :
    (row leaves level).length = width leaves.length level := by
  induction level with
  | zero => rfl
  | succ level ih =>
    show (pairUp (row leaves level)).length = (width leaves.length level + 1) / 2
    rw [length_pairUp, ih]

/-- Above the lowest computed row, the rows are as wide as above so many leaves. -/
theorem width_half (count level : Nat) : width ((count + 1) / 2) level = width count (level + 1) := by
  induction level with
  | zero => rfl
  | succ level ih =>
    show (width ((count + 1) / 2) level + 1) / 2 = (width count (level + 1) + 1) / 2
    rw [ih]

/-- **The rows end with the first that has one node.** -/
theorem height_isLeast {count : Nat} (positive : 0 < count) :
    IsLeast {level | 1 ≤ level ∧ width count level = 1} (height count) := by
  induction count using height.induct with
  | case1 count few =>
    rw [height_of_le few]
    refine ⟨⟨Nat.le_refl 1, ?_⟩, fun level member => member.1⟩
    show (count + 1) / 2 = 1
    omega
  | case2 count many ih =>
    obtain ⟨⟨-, last⟩, least⟩ := ih (by omega)
    rw [height_of_lt (by omega)]
    rw [width_half] at last
    refine ⟨⟨Nat.le_add_left 1 _, last⟩, ?_⟩
    rintro (_ | _ | level) ⟨low, single⟩
    · omega
    · have two : (count + 1) / 2 = 1 := single
      omega
    · rw [← width_half] at single
      exact Nat.succ_le_succ (least ⟨Nat.le_add_left 1 level, single⟩)

/-! ### Node by node -/

/-- The node at a level and an index: a leaf, or the digest of the two nodes below; the zero digest
where the row has ended. -/
def node (leaves : List Hash) : (level index : Nat) → Hash
  | 0, index => leaves.getD index (FixedBytes.zero 32)
  | level + 1, index =>
    if width leaves.length (level + 1) ≤ index then FixedBytes.zero 32
    else doubleSha256Pair (node leaves level (2 * index)) (node leaves level (2 * index + 1))

/-- The row above a row, by indices. -/
theorem getD_pairUp (nodes : List Hash) (index : Nat) :
    (pairUp nodes).getD index (FixedBytes.zero 32) =
      if (pairUp nodes).length ≤ index then FixedBytes.zero 32
      else doubleSha256Pair (nodes.getD (2 * index) (FixedBytes.zero 32))
        (nodes.getD (2 * index + 1) (FixedBytes.zero 32)) := by
  induction nodes using pairUp.induct generalizing index with
  | case1 => exact (if_pos (Nat.zero_le index)).symm
  | case2 last =>
    cases index with
    | zero => exact (if_neg (Nat.not_succ_le_zero 0)).symm
    | succ index => exact (if_pos (Nat.le_add_left 1 index)).symm
  | case3 left right rest ih =>
    cases index with
    | zero => exact (if_neg (Nat.not_succ_le_zero _)).symm
    | succ index =>
      rw [pairUp, List.getD_cons_succ, ih, List.length_cons]
      simp only [Nat.succ_le_succ_iff]
      rfl

/-- **The rows hold the nodes**, and behind a row stands the zero digest. -/
theorem node_eq_getD (leaves : List Hash) (level index : Nat) :
    node leaves level index = (row leaves level).getD index (FixedBytes.zero 32) := by
  induction level generalizing index with
  | zero => rfl
  | succ level ih =>
    show _ = (pairUp (row leaves level)).getD index _
    rw [getD_pairUp, length_pairUp, length_row, node, ih, ih]
    rfl

/-- The rows hold no other nodes. -/
theorem row_eq_map_node (leaves : List Hash) (level : Nat) :
    row leaves level = (List.range (width leaves.length level)).map (node leaves level) := by
  refine List.ext_getElem (by simp [length_row]) fun index inside _ => ?_
  rw [List.getElem_map, List.getElem_range, node_eq_getD, List.getD_eq_getElem _ _ inside]

/-! ### The computed tree -/

variable {leaves : List Hash} {tree : MerkleTree}

theorem exists_height_eq (count : Nat) : ∃ top, height count = top + 1 := by
  rw [height]
  split
  · exact ⟨0, rfl⟩
  · exact ⟨_, rfl⟩

theorem IsRoot.eq_node {root : Hash} (isRoot : IsRoot leaves root) :
    root = node leaves (height leaves.length) 0 := by
  rw [node_eq_getD, isRoot]
  rfl

/-- The nodes above the leaves, row by row. -/
theorem path_eq_nodes (built : ofLeaves? leaves = some tree) :
    tree.path = (List.range (height leaves.length)).flatMap fun level =>
      (List.range (width leaves.length (level + 1))).map (node leaves (level + 1)) := by
  simp only [← row_eq_map_node]
  exact (ofLeaves?_eq_some built).2

theorem length_path (built : ofLeaves? leaves = some tree) :
    tree.path.length =
      ((List.range (height leaves.length)).map fun level => width leaves.length (level + 1)).sum := by
  rw [(ofLeaves?_eq_some built).2, List.length_flatMap]
  simp only [length_row]

/-- The root is computed last. -/
theorem getLast?_path (built : ofLeaves? leaves = some tree) :
    tree.path.getLast? = some tree.root := by
  obtain ⟨isRoot, path⟩ := ofLeaves?_eq_some built
  obtain ⟨below, top⟩ := exists_height_eq leaves.length
  have last : row leaves (below + 1) = [tree.root] := by
    rw [← top]
    exact isRoot
  rw [path, top, List.range_succ, List.flatMap_append, List.flatMap_singleton, last,
    List.getLast?_concat]

end MerkleTree

namespace Block

open MerkleTree (width node height)

theorem treeOver_nil : treeOver [] = .error .emptyBlock := by
  rw [treeOver, MerkleTree.ofLeaves?_nil]

theorem treeOver_eq_ok_iff {ids : List Hash} {tree : MerkleTree} :
    treeOver ids = .ok tree ↔ MerkleTree.ofLeaves? ids = some tree := by
  rw [treeOver]
  cases MerkleTree.ofLeaves? ids with
  | none => simp
  | some other => simp

theorem exists_treeOver {ids : List Hash} (nonempty : ids ≠ []) : ∃ tree, treeOver ids = .ok tree := by
  obtain ⟨root, -, built⟩ := MerkleTree.ofLeaves?_eq ids nonempty
  exact ⟨_, treeOver_eq_ok_iff.mpr built⟩

/-- **The tree that is computed row by row is the one that is read off from the root.** Over any
identifiers there is a tree; it ends with the first row that has one node, the root is this node, the
path consists of the nodes of all rows above the identifiers, the lowest row first, and the root is the
last of them. Only over none is there an error, which says so. -/
theorem treeOver_topDown (ids : List Hash) :
    (ids ≠ [] → ∃ depth tree,
      IsLeast {level | 1 ≤ level ∧ width ids.length level = 1} depth ∧
      treeOver ids = .ok tree ∧
      tree.root = node ids depth 0 ∧
      (tree.path = (List.range depth).flatMap fun level =>
        (List.range (width ids.length (level + 1))).map (node ids (level + 1))) ∧
      tree.path.length = ((List.range depth).map fun level => width ids.length (level + 1)).sum ∧
      tree.path.getLast? = some tree.root) ∧
    ∀ fault, treeOver ids = .error fault ↔ ids = [] ∧ fault = .emptyBlock := by
  refine ⟨fun nonempty => ?_, fun fault => ⟨fun failed => ?_, ?_⟩⟩
  · obtain ⟨tree, made⟩ := exists_treeOver nonempty
    have built := treeOver_eq_ok_iff.mp made
    exact ⟨height ids.length, tree, MerkleTree.height_isLeast (List.length_pos_iff.mpr nonempty),
      made, (MerkleTree.ofLeaves?_eq_some built).1.eq_node, MerkleTree.path_eq_nodes built,
      MerkleTree.length_path built, MerkleTree.getLast?_path built⟩
  · by_cases vacant : ids = []
    · rw [vacant, treeOver_nil] at failed
      cases failed
      exact ⟨vacant, rfl⟩
    · obtain ⟨tree, made⟩ := exists_treeOver vacant
      rw [made] at failed
      cases failed
  · rintro ⟨rfl, rfl⟩
    exact treeOver_nil

/-- Six digests: the row above them is odd. -/
def sixIds : List Hash :=
  (List.range 6).map fun index => ⟨List.replicate 32 (UInt8.ofNat index), List.length_replicate ..⟩

/-- Over six digests there are rows of three, two and one, and the odd row of three is filled up. -/
theorem treeOver_topDown_six :
    sixIds ≠ [] ∧ (∃ tree, treeOver sixIds = .ok tree ∧ tree.root = node sixIds 3 0 ∧
      tree.path = [node sixIds 1 0, node sixIds 1 1, node sixIds 1 2, node sixIds 2 0,
        node sixIds 2 1, node sixIds 3 0] ∧ tree.path.length = 6) ∧
    node sixIds 2 1 = doubleSha256Pair (node sixIds 1 2) (FixedBytes.zero 32) := by
  have nonempty : sixIds ≠ [] := List.cons_ne_nil _ _
  obtain ⟨depth, tree, ⟨⟨low, single⟩, least⟩, made, root, path, length, -⟩ :=
    (treeOver_topDown sixIds).1 nonempty
  have high : depth ≤ 3 := least ⟨by decide, rfl⟩
  have three : depth = 3 := by
    match depth, low, high, single with
    | 1, _, _, single => cases single
    | 2, _, _, single => cases single
    | 3, _, _, _ => rfl
  subst three
  exact ⟨nonempty, ⟨tree, made, root, path, length⟩, rfl⟩

end Block

end Utxo
