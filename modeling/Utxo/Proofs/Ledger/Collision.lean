/-
**When two Merkle trees share a root.**

The lists of leaves may differ in length, and the trees in height. A row is filled up with the zero digest
to an even number of nodes, so a root does not tell whether a zero digest was there or was filled in, nor
which row the leaves are.

* `MerkleTree.padded`: a row, filled up; `MerkleTree.pairUp_padded`: the row above is made of its pairs.
* `MerkleTree.EqualUpToZero`: rows that are equal when filled up.
* `MerkleTree.padded_eq_or_of_row_eq`: from one row down to the leaves, by induction on the height of the
  row.
* `MerkleTree.mem_path_of_mem_row`: the nodes of the rows are those that a tree holds.
* `MerkleTree.roots_collide`: two lists with one root.
* `MerkleTree.root_pairUp`, `MerkleTree.root_padded`: lists that differ and have one root, over any leaves.
-/

import Utxo.Ledger.Block
import Utxo.Proofs.Ledger.TopDown

namespace Utxo.MerkleTree

variable {leaves first second : List Hash} {tree other : MerkleTree} {node : Hash} {level : Nat}

/-! ### Filled-up rows -/

/-- A row with the zero digest behind it, if it has an odd number of nodes. -/
def padded (nodes : List Hash) : List Hash :=
  if nodes.length % 2 = 0 then nodes else nodes ++ [FixedBytes.zero 32]

theorem padded_of_even (even : first.length % 2 = 0) : padded first = first := if_pos even

theorem padded_of_odd (odd : ¬first.length % 2 = 0) :
    padded first = first ++ [FixedBytes.zero 32] := if_neg odd

theorem padded_cons_cons (left right : Hash) (rest : List Hash) :
    padded (left :: right :: rest) = left :: right :: padded rest := by
  have parity : (left :: right :: rest).length % 2 = rest.length % 2 := Nat.add_mod_right _ 2
  rw [padded, padded, parity]
  split
  · rfl
  · rfl

/-- The zero digest is hashed in the place of a node that is missing. -/
theorem messages_padded (nodes : List Hash) : messages (padded nodes) = messages nodes := by
  fun_induction messages nodes with
  | case1 => rfl
  | case2 last => rfl
  | case3 left right rest ih =>
    rw [padded_cons_cons, messages, ih]

/-- The row above is made of pairs of the filled-up row. -/
theorem pairUp_padded (nodes : List Hash) : pairUp (padded nodes) = pairUp nodes := by
  rw [pairUp_eq_map_messages, messages_padded, ← pairUp_eq_map_messages]

theorem length_padded (nodes : List Hash) :
    (padded nodes).length = 2 * ((nodes.length + 1) / 2) := by
  rw [padded]
  split
  · omega
  · rw [List.length_append, List.length_singleton]
    omega

/-- Two rows are equal, or the one is the other with the zero digest behind it. -/
def EqualUpToZero (first second : List Hash) : Prop :=
  first = second ∨ first = second ++ [FixedBytes.zero 32] ∨ second = first ++ [FixedBytes.zero 32]

theorem equalUpToZero_of_padded_eq (same : padded first = padded second) :
    EqualUpToZero first second := by
  by_cases even : first.length % 2 = 0
  · rw [padded_of_even even] at same
    by_cases also : second.length % 2 = 0
    · rw [padded_of_even also] at same
      exact Or.inl same
    · rw [padded_of_odd also] at same
      exact Or.inr (Or.inl same)
  · rw [padded_of_odd even] at same
    by_cases also : second.length % 2 = 0
    · rw [padded_of_even also] at same
      exact Or.inr (Or.inr same.symm)
    · rw [padded_of_odd also] at same
      exact Or.inl (List.append_cancel_right same)

/-- Rows without the zero digest are equal if they are equal up to it. -/
theorem EqualUpToZero.eq_or_mem (alike : EqualUpToZero first second) :
    first = second ∨ FixedBytes.zero 32 ∈ first ∨ FixedBytes.zero 32 ∈ second := by
  rcases alike with equal | rfl | rfl
  · exact Or.inl equal
  · exact Or.inr (Or.inl (List.mem_append_right _ (List.mem_singleton_self _)))
  · exact Or.inr (Or.inr (List.mem_append_right _ (List.mem_singleton_self _)))

/-! ### From a row down to the leaves -/

/-- A row binds the filled-up row below it. -/
theorem padded_eq_or_collideAt (same : pairUp first = pairUp second) :
    padded first = padded second ∨ ∃ index, CollideAt (messages first) (messages second) index := by
  have count : (padded first).length = (padded second).length := by
    rw [length_padded, length_padded, ← length_pairUp, ← length_pairUp, same]
  rw [← pairUp_padded first, ← pairUp_padded second] at same
  rw [← messages_padded first, ← messages_padded second]
  exact eq_or_collideAt_of_pairUp_eq count same

/-- **Rows that are equal stand above leaves that are equal when filled up**, unless two messages below
them collide, or a row between them and the leaves holds the zero digest. -/
theorem padded_eq_or_of_row_eq (level : Nat) (same : row first (level + 1) = row second (level + 1)) :
    padded first = padded second ∨
      (∃ below ≤ level, ∃ index,
        CollideAt (messages (row first below)) (messages (row second below)) index) ∨
      ∃ between < level, FixedBytes.zero 32 ∈ row first (between + 1) ∨
        FixedBytes.zero 32 ∈ row second (between + 1) := by
  induction level with
  | zero =>
    refine (padded_eq_or_collideAt same).imp_right fun collision => Or.inl ?_
    exact ⟨0, Nat.le_refl 0, collision⟩
  | succ level ih =>
    rcases padded_eq_or_collideAt same with filled | collision
    · rcases (equalUpToZero_of_padded_eq filled).eq_or_mem with equal | zero
      · refine (ih equal).imp_right (Or.imp ?_ ?_)
        · rintro ⟨below, under, collision⟩
          exact ⟨below, Nat.le_succ_of_le under, collision⟩
        · rintro ⟨between, under, zero⟩
          exact ⟨between, Nat.lt_succ_of_lt under, zero⟩
      · exact Or.inr (Or.inr ⟨level, Nat.lt_succ_self level, zero⟩)
    · exact Or.inr (Or.inl ⟨level + 1, Nat.le_refl _, collision⟩)

/-- The rows above a row are rows above the leaves. -/
theorem row_row (leaves : List Hash) (low high : Nat) :
    row (row leaves low) high = row leaves (low + high) := by
  induction high with
  | zero => rfl
  | succ high ih => exact congrArg pairUp ih

/-! ### Roots -/

theorem mem_path_of_mem_row (built : ofLeaves? leaves = some tree) (under : level < height leaves.length)
    (member : node ∈ row leaves (level + 1)) : node ∈ tree.path := by
  rw [(ofLeaves?_eq_some built).2]
  exact List.mem_flatMap.mpr ⟨level, List.mem_range.mpr under, member⟩

/-- **Two trees hash different messages to one digest**, at the same distance from their roots and at one
index. -/
def CollideBelowRoots (first second : List Hash) : Prop :=
  ∃ distance, 0 < distance ∧ distance ≤ height first.length ∧ ∃ index,
    CollideAt (messages (row first (height first.length - distance)))
      (messages (row second (height second.length - distance))) index

/-- A collision at one level is one at the distance of that level from the root. -/
theorem collideBelowRoots_of_collideAt {gap index : Nat} (under : level < height first.length)
    (apart : gap + height first.length = height second.length)
    (collision : CollideAt (messages (row first level)) (messages (row (row second gap) level)) index) :
    CollideBelowRoots first second := by
  refine ⟨height first.length - level, by omega, Nat.sub_le _ _, index, ?_⟩
  have low : height first.length - (height first.length - level) = level := by omega
  have also : height second.length - (height first.length - level) = gap + level := by omega
  rw [low, also, ← row_row]
  exact collision

/-- **Trees of any heights with one root** collide, hold the zero digest, or have the leaves of the lower
one, filled up, for a row of the higher one. -/
theorem padded_eq_or_of_roots (built : ofLeaves? first = some tree)
    (alsoBuilt : ofLeaves? second = some other) (sameRoot : tree.root = other.root) {gap : Nat}
    (apart : gap + height first.length = height second.length) :
    CollideBelowRoots first second ∨
      (FixedBytes.zero 32 ∈ tree.path ∨ FixedBytes.zero 32 ∈ other.path) ∨
      padded first = padded (row second gap) := by
  obtain ⟨top, height_eq⟩ := exists_height_eq first.length
  have isRoot : row first (top + 1) = [tree.root] := by
    rw [← height_eq]
    exact (ofLeaves?_eq_some built).1
  have also : row (row second gap) (top + 1) = [tree.root] := by
    rw [row_row, ← height_eq, apart, sameRoot]
    exact (ofLeaves?_eq_some alsoBuilt).1
  rcases padded_eq_or_of_row_eq top (isRoot.trans also.symm) with
    filled | ⟨level, under, index, collision⟩ | ⟨level, under, zero | zero⟩
  · exact Or.inr (Or.inr filled)
  · exact Or.inl (collideBelowRoots_of_collideAt (by omega) apart collision)
  · exact Or.inr (Or.inl (Or.inl (mem_path_of_mem_row built (by omega) zero)))
  · rw [row_row] at zero
    have inside : gap + level < height second.length := by omega
    exact Or.inr (Or.inl (Or.inr (mem_path_of_mem_row alsoBuilt inside zero)))

/-- **Roots agree only by a located collision, a zero digest, or a confusion of levels.** Of two lists
with one root, the first no higher than the second: two different pairs are hashed to one digest, at the
same distance from the roots and at one index; or a computed node is the zero digest; or the first list,
filled up, is the row of the second that is as far from the root. At equal heights this is the second list
itself, up to one zero digest at the end. Lists of one length are the same unless there is such a pair. -/
theorem roots_collide (built : Block.treeOver first = .ok tree)
    (alsoBuilt : Block.treeOver second = .ok other) (sameRoot : tree.root = other.root)
    (higher : height first.length ≤ height second.length) :
    (CollideBelowRoots first second ∨
      (FixedBytes.zero 32 ∈ tree.path ∨ FixedBytes.zero 32 ∈ other.path) ∨
      padded first = padded (row second (height second.length - height first.length))) ∧
    (height first.length = height second.length → CollideBelowRoots first second ∨
      (FixedBytes.zero 32 ∈ tree.path ∨ FixedBytes.zero 32 ∈ other.path) ∨
      EqualUpToZero first second) ∧
    (first.length = second.length → first = second ∨ CollideBelowRoots first second) := by
  rw [Block.treeOver_eq_ok_iff] at built alsoBuilt
  refine ⟨?_, fun level => ?_, fun count => ?_⟩
  · exact padded_eq_or_of_roots built alsoBuilt sameRoot (Nat.sub_add_cancel higher)
  · have apart : 0 + height first.length = height second.length := by rw [Nat.zero_add, level]
    refine (padded_eq_or_of_roots built alsoBuilt sameRoot apart).imp_right (Or.imp_right ?_)
    exact equalUpToZero_of_padded_eq
  · have isRoot := (ofLeaves?_eq_some built).1
    have also := (ofLeaves?_eq_some alsoBuilt).1
    rw [← sameRoot] at also
    refine (leaves_eq_or_collideAt count isRoot also).imp_right ?_
    rintro ⟨level, under, index, collision⟩
    have apart : 0 + height first.length = height second.length := by rw [Nat.zero_add, count]
    exact collideBelowRoots_of_collideAt under apart collision

/-! ### Different lists with one root -/

theorem root_eq_of_row_eq (built : Block.treeOver first = .ok tree)
    (alsoBuilt : Block.treeOver second = .ok other)
    (same : row first (height first.length) = row second (height second.length)) :
    tree.root = other.root := by
  have isRoot := (ofLeaves?_eq_some (Block.treeOver_eq_ok_iff.mp built)).1
  have also := (ofLeaves?_eq_some (Block.treeOver_eq_ok_iff.mp alsoBuilt)).1
  rw [IsRoot, same] at isRoot
  exact List.head_eq_of_cons_eq (isRoot.symm.trans also)

/-- **The row above the leaves, taken for leaves itself, has their root**, if it is not the root. -/
theorem root_pairUp (built : Block.treeOver leaves = .ok tree) (several : 2 < leaves.length) :
    ∃ other, Block.treeOver (pairUp leaves) = .ok other ∧ other.root = tree.root := by
  have nonempty : pairUp leaves ≠ [] := by
    refine List.ne_nil_of_length_pos ?_
    rw [length_pairUp]
    omega
  obtain ⟨other, alsoBuilt⟩ := Block.exists_treeOver nonempty
  refine ⟨other, alsoBuilt, root_eq_of_row_eq alsoBuilt built ?_⟩
  rw [row_pairUp, length_pairUp, height_of_lt several]

theorem height_padded (nodes : List Hash) : height (padded nodes).length = height nodes.length := by
  rw [length_padded]
  rcases Nat.lt_or_ge 2 nodes.length with several | few
  · rw [height_of_lt several, height_of_lt (by omega)]
    congr 2
    omega
  · rw [height_of_le few, height_of_le (by omega)]

/-- **Leaves that are filled up have the same root.** -/
theorem root_padded (built : Block.treeOver leaves = .ok tree) :
    ∃ other, Block.treeOver (padded leaves) = .ok other ∧ other.root = tree.root := by
  have nonempty : padded leaves ≠ [] := by
    refine List.ne_nil_of_length_pos ?_
    have occupied := ne_nil_of_built (Block.treeOver_eq_ok_iff.mp built)
    have positive := List.length_pos_iff.mpr occupied
    rw [length_padded]
    omega
  obtain ⟨other, alsoBuilt⟩ := Block.exists_treeOver nonempty
  refine ⟨other, alsoBuilt, root_eq_of_row_eq alsoBuilt built ?_⟩
  obtain ⟨top, height_eq⟩ := exists_height_eq leaves.length
  rw [height_padded, height_eq, ← row_pairUp, pairUp_padded, row_pairUp]

/-- Three digests, none of them zero. -/
def threeLeaves : List Hash :=
  [1, 2, 3].map fun byte => ⟨List.replicate 32 byte, List.length_replicate ..⟩

/-- The row above three leaves has their root, and so have the three with the zero digest behind them. -/
theorem roots_collide_threeLeaves :
    (∃ tree other, Block.treeOver (pairUp threeLeaves) = .ok tree ∧
      Block.treeOver threeLeaves = .ok other ∧ tree.root = other.root ∧
      (CollideBelowRoots (pairUp threeLeaves) threeLeaves ∨
        (FixedBytes.zero 32 ∈ tree.path ∨ FixedBytes.zero 32 ∈ other.path) ∨
        padded (pairUp threeLeaves) = padded (row threeLeaves 1))) ∧
    ∃ tree other, Block.treeOver (padded threeLeaves) = .ok tree ∧
      Block.treeOver threeLeaves = .ok other ∧ tree.root = other.root ∧
      (CollideBelowRoots (padded threeLeaves) threeLeaves ∨
        (FixedBytes.zero 32 ∈ tree.path ∨ FixedBytes.zero 32 ∈ other.path) ∨
        EqualUpToZero (padded threeLeaves) threeLeaves) := by
  obtain ⟨tree, built⟩ := Block.exists_treeOver (show threeLeaves ≠ [] from List.cons_ne_nil _ _)
  have high : height threeLeaves.length = 2 := by
    rw [height_of_lt (by decide), height_of_le (by decide)]
  have low : height (pairUp threeLeaves).length = 1 := height_of_le (by decide)
  obtain ⟨above, aboveBuilt, aboveRoot⟩ := root_pairUp built (by decide)
  obtain ⟨filled, filledBuilt, filledRoot⟩ := root_padded built
  have lower : height (pairUp threeLeaves).length ≤ height threeLeaves.length := by omega
  have confused := (roots_collide aboveBuilt built aboveRoot lower).1
  rw [low, high] at confused
  have level := height_padded threeLeaves
  have trailing := (roots_collide filledBuilt built filledRoot (Nat.le_of_eq level)).2.1 level
  exact ⟨⟨above, tree, aboveBuilt, built, aboveRoot, confused⟩,
    filled, tree, filledBuilt, built, filledRoot, trailing⟩

end Utxo.MerkleTree
