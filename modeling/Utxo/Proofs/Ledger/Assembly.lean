/-
**A block that is assembled is consistent with itself.**

* `BlockHeader.length_encode`, `Block.length_encode`: the form of a block is as long as its transactions
  make it, whatever root and size are filled in.
* `Block.Assembled`: what is asked of a block that is made of a header and transactions;
  `Block.Assembled.unique`: at most one block is that.
* `Block.assemble_eq_ok_iff`: that block is the one that is assembled.
* `Block.Assembled.checkBlock`: so its form passes every check that has room for it.
* `Block.assemble_selfConsistent`: what assembling answers, in full.
-/

import Utxo.Proofs.Ledger.Checking

namespace Utxo

open MerkleTree (IsRoot)

/-! ### The length of a form -/

/-- All headers take as many bytes. -/
theorem BlockHeader.length_encode (header : BlockHeader) : header.encode.length = 84 := by
  simp only [encode, List.length_append, LittleEndian.length_ofInt32, LittleEndian.length_ofInt64,
    FixedBytes.length_toBytes]

namespace Block

variable {header : BlockHeader} {transactions : List Transaction} {block other : Block}

/-- The fields of fixed width, and the list. -/
theorem length_encode (block : Block) :
    block.encode.length = 88 + (Wire.encodeList block.transactions).length := by
  simp only [encode, List.length_append, LittleEndian.length_ofInt32, BlockHeader.length_encode]

/-- Stating the size does not change it. -/
theorem length_encode_withStatedSize (block : Block) :
    block.withStatedSize.encode.length = block.encode.length := by
  rw [length_encode, length_encode]
  rfl

/-- The size field holds every size that is stated. -/
theorem toInt_size_withStatedSize (block : Block) :
    block.withStatedSize.size.toInt = min (block.withStatedSize.encode.length : Int) 2147483647 := by
  have largest : maxStatedSize = 2147483647 := by decide
  have small : min block.encode.length maxStatedSize < 2147483648 := by omega
  rw [length_encode_withStatedSize, withStatedSize, Int32.toInt_ofNat_of_lt small]
  omega

/-! ### Assembled blocks -/

/-- **The block is made of the header and the transactions.** It holds these; it has this header, except
that the root is that of their identifiers; and it states its size as far as the field can. -/
structure Assembled (header : BlockHeader) (transactions : List Transaction) (block : Block) :
    Prop where
  transactions_eq : block.transactions = transactions
  header_eq : block.header = { header with merkleRoot := block.header.merkleRoot }
  isRoot : IsRoot (transactions.map Transaction.id) block.header.merkleRoot
  size_eq : block.size.toInt = min (block.encode.length : Int) 2147483647

namespace Assembled

/-- No more than one block is. -/
theorem unique (made : Assembled header transactions block)
    (also : Assembled header transactions other) : block = other := by
  have same : block.transactions = other.transactions :=
    made.transactions_eq.trans also.transactions_eq.symm
  have length : block.encode.length = other.encode.length := by
    rw [length_encode, length_encode, same]
  have size : block.size = other.size := by
    rw [← Int32.toInt_inj, made.size_eq, also.size_eq, length]
  have head : block.header = other.header := by
    rw [made.header_eq, also.header_eq, made.isRoot.unique also.isRoot]
  cases block
  cases other
  cases same
  cases size
  cases head
  rfl

/-- The root that the header came with is of no account. -/
theorem withRoot_iff (root : Hash) :
    Assembled { header with merkleRoot := root } transactions block ↔
      Assembled header transactions block :=
  ⟨fun made => ⟨made.transactions_eq, made.header_eq, made.isRoot, made.size_eq⟩,
    fun made => ⟨made.transactions_eq, made.header_eq, made.isRoot, made.size_eq⟩⟩

/-- It is made of its own header and transactions. -/
theorem own (made : Assembled header transactions block) :
    Assembled block.header block.transactions block :=
  ⟨rfl, rfl, made.transactions_eq ▸ made.isRoot, made.size_eq⟩

theorem committed (made : Assembled header transactions block) : block.Committed := by
  rw [Committed, transactionIds, made.transactions_eq]
  exact made.isRoot

theorem ne_nil (made : Assembled header transactions block) : transactions ≠ [] := by
  rintro rfl
  have alone : MerkleTree.row [] (MerkleTree.height 0) = [block.header.merkleRoot] := made.isRoot
  rw [MerkleTree.height_of_le (by decide)] at alone
  cases alone

theorem commits (made : Assembled header transactions block) : block.commits = .ok true := by
  have occupied : block.transactions ≠ [] := made.transactions_eq ▸ made.ne_nil
  rw [commits_of_ne_nil occupied, decide_eq_true made.committed]

/-- **Its form passes every check that has room for it.** -/
theorem checkBlock (made : Assembled header transactions block) (validator : Validator) :
    validator.checkBlock block.encode =
      if block.encode.length ≤ validator.limit then .ok block
      else .error (.decode (.tooLarge block.encode.length validator.limit)) := by
  split
  next room =>
    have occupied : block.transactions ≠ [] := made.transactions_eq ▸ made.ne_nil
    exact Validator.checkBlock_eq_ok_iff.mpr ⟨room, rfl, occupied, made.committed⟩
  next tight => exact Validator.checkBlock_of_refused (.tooLarge (Nat.not_le.mp tight))

end Assembled

/-! ### Assembling -/

theorem assemble_nil (header : BlockHeader) : assemble header [] = .error .emptyBlock := by
  rw [assemble, List.map_nil, treeOver, MerkleTree.ofLeaves?_nil]
  rfl

/-- Of any transactions a block is assembled, with everything that is asked of it. -/
theorem exists_assemble (header : BlockHeader) (occupied : transactions ≠ []) :
    ∃ block, assemble header transactions = .ok block ∧ Assembled header transactions block := by
  have ids : transactions.map Transaction.id ≠ [] := fun vacant => occupied (List.map_eq_nil_iff.mp vacant)
  obtain ⟨root, isRoot, built⟩ := MerkleTree.ofLeaves?_eq _ ids
  refine ⟨withStatedSize ⟨0, { header with merkleRoot := root }, transactions⟩, ?_, ?_⟩
  · rw [assemble, treeOver, built]
    rfl
  · exact ⟨rfl, rfl, isRoot, toInt_size_withStatedSize _⟩

/-- **The block that is assembled is the one that is asked for.** -/
theorem assemble_eq_ok_iff :
    assemble header transactions = .ok block ↔ Assembled header transactions block := by
  constructor
  · intro assembled
    have occupied : transactions ≠ [] := by
      rintro rfl
      rw [assemble_nil] at assembled
      cases assembled
    obtain ⟨other, same, made⟩ := exists_assemble header occupied
    rw [assembled] at same
    cases same
    exact made
  · intro made
    obtain ⟨other, assembled, also⟩ := exists_assemble header made.ne_nil
    rw [assembled, made.unique also]

/-- **A block that is assembled is consistent with itself.** Only without transactions there is none.
Otherwise it holds the transactions and has the header, with their root filled in; it states its own size;
it is assembled again from its own parts; its header commits to its transactions; and its form passes
every check that has room for it. The root that the header came with is of no account. -/
theorem assemble_selfConsistent (header : BlockHeader) (transactions : List Transaction) :
    (∀ fault, assemble header transactions = .error fault ↔
      transactions = [] ∧ fault = .emptyBlock) ∧
    (transactions ≠ [] → ∃ block, assemble header transactions = .ok block ∧
      Assembled header transactions block ∧
      assemble block.header block.transactions = .ok block ∧
      block.commits = .ok true ∧
      ∀ validator : Validator, validator.checkBlock block.encode =
        if block.encode.length ≤ validator.limit then .ok block
        else .error (.decode (.tooLarge block.encode.length validator.limit))) ∧
    ∀ root, assemble { header with merkleRoot := root } transactions =
      assemble header transactions := by
  refine ⟨fun fault => ⟨fun failed => ?_, ?_⟩, fun occupied => ?_, fun root => ?_⟩
  · by_cases vacant : transactions = []
    · rw [vacant, assemble_nil] at failed
      cases failed
      exact ⟨vacant, rfl⟩
    · obtain ⟨block, assembled, -⟩ := exists_assemble header vacant
      rw [assembled] at failed
      cases failed
  · rintro ⟨rfl, rfl⟩
    exact assemble_nil header
  · obtain ⟨block, assembled, made⟩ := exists_assemble header occupied
    exact ⟨block, assembled, made, assemble_eq_ok_iff.mpr made.own, made.commits, made.checkBlock⟩
  · by_cases vacant : transactions = []
    · rw [vacant, assemble_nil, assemble_nil]
    · obtain ⟨block, assembled, made⟩ := exists_assemble header vacant
      rw [assembled]
      exact assemble_eq_ok_iff.mpr ((Assembled.withRoot_iff root).mpr made)

/-- The three idle transactions, under a header without a root: the block is the one that states a size of
168 bytes, and a validator that allows one byte less refuses it. -/
theorem assemble_selfConsistent_threeIdle :
    (threeIdle 0 1).transactions ≠ [] ∧
      assemble { (threeIdle 0 1).header with merkleRoot := FixedBytes.zero 32 }
        (threeIdle 0 1).transactions = .ok (threeIdle 168 1) ∧
      (Validator.mk ⟨167, 0⟩ (by decide)).checkBlock (threeIdle 168 1).encode =
        .error (.decode (.tooLarge 168 167)) := by
  have occupied : (threeIdle 0 1).transactions ≠ [] := List.cons_ne_nil _ _
  obtain ⟨-, made, rootless⟩ :=
    assemble_selfConsistent (threeIdle 0 1).header (threeIdle 0 1).transactions
  obtain ⟨block, assembled, parts, -, -, checks⟩ := made occupied
  have checked := checkBlock_threeIdle (show 168 ≤ Validator.default.limit by decide) 168 1
  obtain ⟨-, -, -, committed⟩ := Validator.checkBlock_eq_ok_iff.mp checked
  have length : (threeIdle 168 1).encode.length = 168 := by
    rw [length_encode]
    rfl
  have same : block = threeIdle 168 1 :=
    parts.unique ⟨rfl, rfl, committed, by rw [length]; rfl⟩
  subst same
  refine ⟨occupied, (rootless _).trans assembled, ?_⟩
  rw [checks, length]
  rfl

end Block

end Utxo
