/-
**Merkle trees row by row, and what a root binds.**

* `MerkleTree.row`: the rows above the leaves, and `MerkleTree.height`: how many there are up to the
  root. `ofLeaves?_eq`: these rows, and no others, are computed, the lowest first; `IsRoot`: the last of
  them is the root alone; `ofLeaves?_eq_some`: what a computed tree therefore holds.
* `MerkleTree.messages`: what is hashed on the way from a row to the next; `pairUp_eq_map_messages`.
* `CollideAt`: two different messages at one place of two computations, with one digest.
  `eq_or_collideAt`: lists whose digests are equal are equal, or they collide somewhere.
* `MerkleTree.row_eq_or_collideAt`: from one row down to the leaves, by induction on the height of the
  row; `MerkleTree.leaves_eq_or_collideAt`: what a root tells about as many leaves.
-/

import Utxo.Ledger.Merkle

namespace Utxo

/-! ### Located collisions -/

/-- **Two different messages at one place of two lists have one double digest.** -/
def CollideAt (first second : List Bytes) (index : Nat) : Prop :=
  ∃ left right, first[index]? = some left ∧ second[index]? = some right ∧ left ≠ right ∧
    doubleSha256 left = doubleSha256 right

/-- Lists of messages with equal digests are equal, unless they collide somewhere. -/
theorem eq_or_collideAt {first second : List Bytes}
    (same : first.map doubleSha256 = second.map doubleSha256) :
    first = second ∨ ∃ index, CollideAt first second index := by
  by_cases equal : first = second
  · exact Or.inl equal
  · obtain ⟨index, apart⟩ : ∃ index, first[index]? ≠ second[index]? :=
      Classical.not_forall.mp fun everywhere => equal (List.ext_getElem? everywhere)
    have digests : first[index]?.map doubleSha256 = second[index]?.map doubleSha256 := by
      rw [← List.getElem?_map, same, List.getElem?_map]
    refine Or.inr ⟨index, ?_⟩
    cases left : first[index]? with
    | none =>
      rw [left] at digests apart
      exact absurd (Option.map_eq_none_iff.mp digests.symm).symm apart
    | some message =>
      rw [left] at digests apart
      obtain ⟨other, right, digest⟩ := Option.map_eq_some_iff.mp digests.symm
      rw [right] at apart
      exact ⟨message, other, left, right, fun equal => apart (congrArg some equal), digest.symm⟩

namespace MerkleTree

variable {leaves first second : List Hash} {root : Hash}

/-! ### Rows -/

/-- The row so many levels above the leaves. -/
def row (leaves : List Hash) : Nat → List Hash
  | 0 => leaves
  | level + 1 => pairUp (row leaves level)

/-- The number of rows above so many leaves, up to the root. -/
def height (count : Nat) : Nat :=
  if count ≤ 2 then 1 else height ((count + 1) / 2) + 1

theorem height_of_le {count : Nat} (few : count ≤ 2) : height count = 1 := by
  rw [height, if_pos few]

theorem height_of_lt {count : Nat} (many : 2 < count) :
    height count = height ((count + 1) / 2) + 1 := by
  rw [height, if_neg (by omega)]

/-- The rows above the lowest computed row are the rows above that row. -/
theorem row_pairUp (leaves : List Hash) (level : Nat) :
    row (pairUp leaves) level = row leaves (level + 1) := by
  induction level with
  | zero => rfl
  | succ level ih => exact congrArg pairUp ih

/-- Rows above as many leaves have as many nodes. -/
theorem length_row_congr (count : first.length = second.length) (level : Nat) :
    (row first level).length = (row second level).length := by
  induction level with
  | zero => exact count
  | succ level ih =>
    show (pairUp (row first level)).length = (pairUp (row second level)).length
    rw [length_pairUp, length_pairUp, ih]

/-- **The highest row holds the root alone.** -/
def IsRoot (leaves : List Hash) (root : Hash) : Prop := row leaves (height leaves.length) = [root]

instance : Decidable (IsRoot leaves root) := inferInstanceAs (Decidable (_ = _))

theorem IsRoot.unique {other : Hash} (isRoot : IsRoot leaves root) (also : IsRoot leaves other) :
    root = other := List.head_eq_of_cons_eq (isRoot.symm.trans also)

theorem ofLeaves?_nil : ofLeaves? [] = none := by
  rw [ofLeaves?]
  rfl

theorem ofLeaves?_of_single (single : pairUp leaves = [root]) :
    ofLeaves? leaves = some ⟨root, [root]⟩ := by
  rw [ofLeaves?]
  split
  next empty =>
    rw [single] at empty
    cases empty
  next other found =>
    rw [single] at found
    cases found
    rfl
  next several =>
    rw [single] at several
    cases several

theorem ofLeaves?_of_several {tree : MerkleTree} (several : 1 < (pairUp leaves).length)
    (above : ofLeaves? (pairUp leaves) = some tree) :
    ofLeaves? leaves = some ⟨tree.root, pairUp leaves ++ tree.path⟩ := by
  rw [ofLeaves?]
  split
  next empty =>
    rw [empty] at several
    cases several
  next single =>
    rw [single] at several
    exact absurd several (Nat.lt_irrefl 1)
  next found =>
    rw [found] at above
    rw [found, above]
    rfl

/-- **The computed rows are those above the leaves, up to the root.** -/
theorem ofLeaves?_eq (leaves : List Hash) (nonempty : leaves ≠ []) :
    ∃ root, IsRoot leaves root ∧ ofLeaves? leaves =
      some ⟨root, (List.range (height leaves.length)).flatMap fun level =>
        row leaves (level + 1)⟩ := by
  have positive := List.length_pos_iff.mpr nonempty
  induction leaves using ofLeaves?.induct with
  | case1 leaves empty =>
    have length := congrArg List.length empty
    rw [length_pairUp, List.length_nil] at length
    omega
  | case2 leaves root single =>
    have length := congrArg List.length single
    rw [length_pairUp, List.length_singleton] at length
    have last : height leaves.length = 1 := height_of_le (by omega)
    refine ⟨root, ?_, ?_⟩
    · rw [IsRoot, last]
      exact single
    · have path : (List.range 1).flatMap (fun level => row leaves (level + 1)) = pairUp leaves :=
        List.append_nil _
      rw [ofLeaves?_of_single single, last, path, single]
  | case3 leaves left right rest several ih =>
    rw [← several] at ih
    have length := congrArg List.length several
    rw [length_pairUp, List.length_cons, List.length_cons] at length
    have more : height leaves.length = height (pairUp leaves).length + 1 := by
      rw [length_pairUp]
      exact height_of_lt (by omega)
    obtain ⟨root, isRoot, above⟩ := ih (by rw [several]; exact List.cons_ne_nil _ _)
      (by rw [length_pairUp]; omega)
    refine ⟨root, ?_, ?_⟩
    · rw [IsRoot, row_pairUp, ← more] at isRoot
      exact isRoot
    · rw [ofLeaves?_of_several (by rw [length_pairUp]; omega) above, more, List.range_succ_eq_map,
        List.flatMap_cons, List.flatMap_map]
      simp only [row_pairUp]
      rfl

theorem ne_nil_of_built {tree : MerkleTree} (built : ofLeaves? leaves = some tree) : leaves ≠ [] := by
  rintro rfl
  rw [ofLeaves?_nil] at built
  cases built

/-- **What a computed tree holds**: the root of the rows, and all of them. -/
theorem ofLeaves?_eq_some {tree : MerkleTree} (built : ofLeaves? leaves = some tree) :
    IsRoot leaves tree.root ∧ tree.path =
      (List.range (height leaves.length)).flatMap fun level => row leaves (level + 1) := by
  obtain ⟨root, isRoot, computed⟩ := ofLeaves?_eq leaves (ne_nil_of_built built)
  rw [built] at computed
  cases computed
  exact ⟨isRoot, rfl⟩

/-! ### What is hashed -/

/-- The messages whose digests are the row above: two nodes each, the zero digest in the place of a
node that is missing. -/
def messages : List Hash → List Bytes
  | [] => []
  | [last] => [last.toBytes ++ (FixedBytes.zero 32).toBytes]
  | left :: right :: rest => (left.toBytes ++ right.toBytes) :: messages rest

theorem pairUp_eq_map_messages (nodes : List Hash) :
    pairUp nodes = (messages nodes).map doubleSha256 := by
  fun_induction messages nodes with
  | case1 => rfl
  | case2 last => rfl
  | case3 left right rest ih =>
    rw [pairUp, ih]
    rfl

/-- Nodes are told apart by their messages, if they are as many. -/
theorem eq_of_messages_eq (count : first.length = second.length)
    (same : messages first = messages second) : first = second := by
  induction first using messages.induct generalizing second with
  | case1 => exact (List.eq_nil_of_length_eq_zero count.symm).symm
  | case2 last =>
    obtain ⟨other, rfl⟩ := List.length_eq_one_iff.mp count.symm
    have joined := (List.cons.inj same).1
    have node := (List.append_inj joined (by rw [last.length_eq, other.length_eq])).1
    rw [FixedBytes.ext node]
  | case3 left right rest ih =>
    match second, count with
    | other :: further :: others, count =>
      obtain ⟨joined, behind⟩ := List.cons.inj same
      obtain ⟨leftNode, rightNode⟩ :=
        List.append_inj joined (by rw [left.length_eq, other.length_eq])
      have tail := ih (Nat.succ.inj (Nat.succ.inj count)) behind
      rw [FixedBytes.ext leftNode, FixedBytes.ext rightNode, tail]

/-! ### What a row tells about the rows below it -/

/-- A row binds the one below it, if that has as many nodes. -/
theorem eq_or_collideAt_of_pairUp_eq (count : first.length = second.length)
    (same : pairUp first = pairUp second) :
    first = second ∨ ∃ index, CollideAt (messages first) (messages second) index := by
  rw [pairUp_eq_map_messages, pairUp_eq_map_messages] at same
  exact (eq_or_collideAt same).imp_left (eq_of_messages_eq count)

/-- **Rows that are equal stand above equal leaves**, unless two messages below them collide, at one
place of one level. -/
theorem row_eq_or_collideAt (count : first.length = second.length) (level : Nat)
    (same : row first level = row second level) :
    first = second ∨ ∃ below < level, ∃ index,
      CollideAt (messages (row first below)) (messages (row second below)) index := by
  induction level with
  | zero => exact Or.inl same
  | succ level ih =>
    rcases eq_or_collideAt_of_pairUp_eq (length_row_congr count level) same with equal | collision
    · refine (ih equal).imp_right ?_
      rintro ⟨below, under, collision⟩
      exact ⟨below, Nat.lt_succ_of_lt under, collision⟩
    · exact Or.inr ⟨level, Nat.lt_succ_self level, collision⟩

/-- **A root binds the leaves below it**, once their number is known, unless two messages collide. -/
theorem leaves_eq_or_collideAt (count : first.length = second.length) (isRoot : IsRoot first root)
    (also : IsRoot second root) :
    first = second ∨ ∃ level < height first.length, ∃ index,
      CollideAt (messages (row first level)) (messages (row second level)) index := by
  rw [IsRoot, ← count] at also
  exact row_eq_or_collideAt count _ (isRoot.trans also.symm)

end MerkleTree

end Utxo
