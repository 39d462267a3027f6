/-
**What a checked block is, and what its header binds.**

* `Block.commits_of_ne_nil`: a header commits when it states the root of the rows above the
  transactions' identifiers.
* `Validator.checkBlock_of_decoded`, `checkBlock_of_undecoded`: the check behind the decoder.
* `Validator.Refused`: why a byte string is no checked block, the first of five reasons that applies;
  `accepted_or_refused`: there is one, unless the byte string is the form of a block that is not empty
  and committed to.
* `Validator.checkBlock_decides`: the answer of the check, in full.
* `Block.checked_binds`: of two checked blocks with one root and as many transactions, these are the
  same, unless two messages collide at one place of the two checks.
-/

import Utxo.Validator
import Utxo.Proofs.Answer
import Utxo.Proofs.Ledger.Forms
import Utxo.Proofs.Ledger.Merkle

namespace Utxo

open MerkleTree (IsRoot)

/-! ### Commitment to the transactions -/

namespace Block

variable {block : Block}

/-- The header states the root of the tree over the identifiers. -/
def Committed (block : Block) : Prop := IsRoot block.transactionIds block.header.merkleRoot

instance : Decidable block.Committed := inferInstanceAs (Decidable (IsRoot _ _))

theorem commits_of_nil (vacant : block.transactions = []) : block.commits = .error .emptyBlock := by
  have ids : block.transactionIds = [] := congrArg (List.map Transaction.id) vacant
  rw [commits, merkle, ids, treeOver, MerkleTree.ofLeaves?_nil]
  rfl

theorem commits_of_ne_nil (occupied : block.transactions ≠ []) :
    block.commits = .ok (decide block.Committed) := by
  have ids : block.transactionIds ≠ [] := fun vacant => occupied (List.map_eq_nil_iff.mp vacant)
  obtain ⟨root, isRoot, built⟩ := MerkleTree.ofLeaves?_eq block.transactionIds ids
  have same : root = block.header.merkleRoot ↔ block.Committed := by
    refine ⟨fun equal => ?_, fun committed => isRoot.unique committed⟩
    rw [equal] at isRoot
    exact isRoot
  rw [commits, merkle, treeOver, built]
  show Except.ok (decide (root = block.header.merkleRoot)) = _
  rw [decide_eq_decide.mpr same]

end Block

/-! ### The check of a byte string -/

namespace Validator

variable {validator : Validator} {bytes : Bytes} {block : Block} {fault : Error}

theorem limit_lt (validator : Validator) : validator.limit < UInt64.size :=
  validator.config.maxDecodeSize.toNat_lt

theorem checkBlock_of_undecoded {cause : DecodeError}
    (failed : Wire.decodeExact (α := Block) bytes validator.limit = .error cause) :
    validator.checkBlock bytes = .error (.decode cause) := by
  rw [checkBlock, decodeBlock, decode, failed]
  rfl

theorem checkBlock_of_decoded (read : Wire.decodeExact bytes validator.limit = .ok block) :
    validator.checkBlock bytes =
      if block.transactions = [] then .error .emptyBlock
      else if block.Committed then .ok block else .error .merkleRootMismatch := by
  rw [checkBlock, decodeBlock, decode, read]
  show (block.commits >>= fun commits => _) = _
  by_cases vacant : block.transactions = []
  · rw [if_pos vacant, Block.commits_of_nil vacant]
    rfl
  · rw [if_neg vacant, Block.commits_of_ne_nil vacant]
    by_cases committed : block.Committed
    · rw [if_pos committed, decide_eq_true committed]
      rfl
    · rw [if_neg committed, decide_eq_false committed]
      rfl

/-- What is accepted: the form of a block that is not empty and committed to. -/
theorem checkBlock_eq_ok_iff :
    validator.checkBlock bytes = .ok block ↔ bytes.length ≤ validator.limit ∧
      bytes = block.encode ∧ block.transactions ≠ [] ∧ block.Committed := by
  constructor
  · intro accepted
    cases read : Wire.decodeExact (α := Block) bytes validator.limit with
    | error cause =>
      rw [checkBlock_of_undecoded read] at accepted
      cases accepted
    | ok other =>
      rw [checkBlock_of_decoded read] at accepted
      split at accepted
      next => cases accepted
      next occupied =>
        split at accepted
        next committed =>
          cases accepted
          obtain ⟨-, short, form⟩ := (Wire.decodeExact_eq_ok_iff Block.decoder_inverts).mp read
          exact ⟨short, form, occupied, committed⟩
        next => cases accepted
  · rintro ⟨short, rfl, occupied, committed⟩
    -- within the limit no list is too long to be counted
    have countable := Block.countable_of_length_lt (Nat.lt_of_le_of_lt short validator.limit_lt)
    have read := (Wire.decodeExact_eq_ok_iff Block.decoder_inverts).mpr ⟨countable, short, rfl⟩
    rw [checkBlock_of_decoded read, if_neg occupied, if_pos committed]

/-! ### Why a byte string is refused -/

/-- **Why a byte string is no checked block**: the first of these reasons that applies. -/
inductive Refused (limit : Nat) (bytes : Bytes) : Error → Prop
  | tooLarge (long : limit < bytes.length) :
      Refused limit bytes (.decode (.tooLarge bytes.length limit))
  | undecoded {cause : DecodeError} {after : Reader} (short : bytes.length ≤ limit)
      (failed : Block.decoder (Reader.ofBytes bytes) = .error cause after) :
      Refused limit bytes (.decode cause)
  | trailing {block : Block} {after : Reader} (short : bytes.length ≤ limit)
      (read : Block.decoder (Reader.ofBytes bytes) = .ok block after)
      (more : after.position < bytes.length) :
      Refused limit bytes (.decode (.trailing (bytes.length - after.position)))
  | empty {block : Block} {after : Reader} (short : bytes.length ≤ limit)
      (read : Block.decoder (Reader.ofBytes bytes) = .ok block after)
      (whole : after.position = bytes.length) (vacant : block.transactions = []) :
      Refused limit bytes .emptyBlock
  | uncommitted {block : Block} {after : Reader} (short : bytes.length ≤ limit)
      (read : Block.decoder (Reader.ofBytes bytes) = .ok block after)
      (whole : after.position = bytes.length) (occupied : block.transactions ≠ [])
      (apart : ¬ block.Committed) :
      Refused limit bytes .merkleRootMismatch

theorem checkBlock_of_refused (refused : Refused validator.limit bytes fault) :
    validator.checkBlock bytes = .error fault := by
  cases refused with
  | tooLarge long =>
    exact checkBlock_of_undecoded (Wire.decodeExact_of_error (Wire.decodeWithLimit_of_lt long))
  | undecoded short failed =>
    have undecoded := Wire.decodeWithLimit_of_error (α := Block) short failed
    exact checkBlock_of_undecoded (Wire.decodeExact_of_error undecoded)
  | trailing short read more =>
    have decoded := Wire.decodeWithLimit_of_ok (α := Block) short read
    refine checkBlock_of_undecoded ?_
    rw [Wire.decodeExact_of_ok decoded, if_neg (Nat.ne_of_lt more)]
  | empty short read whole vacant =>
    have decoded := Wire.decodeExact_of_whole (α := Block) short read whole
    rw [checkBlock_of_decoded decoded, if_pos vacant]
  | uncommitted short read whole occupied apart =>
    have decoded := Wire.decodeExact_of_whole (α := Block) short read whole
    rw [checkBlock_of_decoded decoded, if_neg occupied, if_neg apart]

/-- A byte string is accepted or there is a reason to refuse it. -/
theorem accepted_or_refused (validator : Validator) (bytes : Bytes) :
    (∃ block, validator.checkBlock bytes = .ok block) ∨
      ∃ fault, Refused validator.limit bytes fault := by
  by_cases long : validator.limit < bytes.length
  · exact Or.inr ⟨_, .tooLarge long⟩
  · have short := Nat.not_lt.mp long
    cases read : Block.decoder (Reader.ofBytes bytes) with
    | error cause after => exact Or.inr ⟨_, .undecoded short read⟩
    | ok block after =>
      by_cases more : after.position < bytes.length
      · exact Or.inr ⟨_, .trailing short read more⟩
      · -- the decoder does not move beyond the end
        have whole : after.position = bytes.length := by
          have passes := (Block.decoder_inverts.iff.mp read).2
          have ends : after.position + after.remaining = 0 + bytes.length :=
            passes.position_add_remaining
          omega
        by_cases vacant : block.transactions = []
        · exact Or.inr ⟨_, .empty short read whole vacant⟩
        · by_cases committed : block.Committed
          · have decoded := Wire.decodeExact_of_whole (α := Block) short read whole
            have answer := checkBlock_of_decoded decoded
            rw [if_neg vacant, if_pos committed] at answer
            exact Or.inl ⟨block, answer⟩
          · exact Or.inr ⟨_, .uncommitted short read whole vacant committed⟩

theorem checkBlock_eq_error_iff :
    validator.checkBlock bytes = .error fault ↔ Refused validator.limit bytes fault :=
  eq_error_iff_of_refused checkBlock_of_refused (validator.accepted_or_refused bytes)

/-- **The check accepts just the forms of blocks that are not empty and committed to**, whatever size
they state, and refuses any other byte string for the first reason that applies. -/
theorem checkBlock_decides (validator : Validator) (bytes : Bytes) :
    (∀ block, validator.checkBlock bytes = .ok block ↔ bytes.length ≤ validator.limit ∧
      bytes = block.encode ∧ block.transactions ≠ [] ∧
      IsRoot block.transactionIds block.header.merkleRoot) ∧
    ∀ fault, validator.checkBlock bytes = .error fault ↔ Refused validator.limit bytes fault :=
  ⟨fun _ => checkBlock_eq_ok_iff, fun _ => checkBlock_eq_error_iff⟩

end Validator

/-! ### What the header of a checked block binds -/

namespace Block

variable {first second : Block}

/-- An identifier is the double digest of a form. -/
theorem transactionIds_eq_map_encode (block : Block) :
    block.transactionIds = (block.transactions.map Transaction.encode).map doubleSha256 := by
  rw [List.map_map]
  rfl

/-- Identifiers bind transactions, unless the forms of two of them collide. -/
theorem transactions_eq_or_collideAt (firstCountable : first.Countable)
    (secondCountable : second.Countable) (same : first.transactionIds = second.transactionIds) :
    first.transactions = second.transactions ∨
      ∃ index, CollideAt (first.transactions.map Transaction.encode)
        (second.transactions.map Transaction.encode) index := by
  rw [transactionIds_eq_map_encode, transactionIds_eq_map_encode] at same
  refine (eq_or_collideAt same).imp_left fun forms => ?_
  exact Wire.eq_of_map_encode_eq Transaction.decoder_inverts firstCountable.2 secondCountable.2 forms

theorem countable_of_checked {validator : Validator} {bytes : Bytes} {block : Block}
    (checked : validator.checkBlock bytes = .ok block) : block.Countable := by
  obtain ⟨short, form, -, -⟩ := Validator.checkBlock_eq_ok_iff.mp checked
  rw [form] at short
  exact countable_of_length_lt (Nat.lt_of_le_of_lt short validator.limit_lt)

/-- **The checks of two blocks hash two different messages to one digest at one place**: the forms of
two transactions at one index, or two pairs of nodes at one index of one level of the trees. -/
def Collides (first second : Block) : Prop :=
  (∃ index, CollideAt (first.transactions.map Transaction.encode)
    (second.transactions.map Transaction.encode) index) ∨
  ∃ level < MerkleTree.height first.transactions.length, ∃ index,
    CollideAt (MerkleTree.messages (MerkleTree.row first.transactionIds level))
      (MerkleTree.messages (MerkleTree.row second.transactionIds level)) index

/-- **The header of a checked block binds its transactions.** Two checked blocks of as many
transactions, whose headers state one root, hold the same transactions in the same order, unless their
checks show a collision. -/
theorem checked_binds {validator other : Validator} {bytes others : Bytes} {first second : Block}
    (firstChecked : validator.checkBlock bytes = .ok first)
    (secondChecked : other.checkBlock others = .ok second)
    (sameRoot : first.header.merkleRoot = second.header.merkleRoot)
    (sameCount : first.transactions.length = second.transactions.length) :
    first.transactions = second.transactions ∨ first.Collides second := by
  obtain ⟨-, -, -, firstCommitted⟩ := Validator.checkBlock_eq_ok_iff.mp firstChecked
  obtain ⟨-, -, -, secondCommitted⟩ := Validator.checkBlock_eq_ok_iff.mp secondChecked
  have leaves : first.transactionIds.length = first.transactions.length := List.length_map ..
  have count : first.transactionIds.length = second.transactionIds.length := by
    rw [leaves, sameCount]
    exact (List.length_map ..).symm
  unfold Committed at firstCommitted secondCommitted
  rw [sameRoot] at firstCommitted
  rcases MerkleTree.leaves_eq_or_collideAt count firstCommitted secondCommitted with ids | pairs
  · have firstCountable := countable_of_checked firstChecked
    have secondCountable := countable_of_checked secondChecked
    exact (transactions_eq_or_collideAt firstCountable secondCountable ids).imp_right Or.inl
  · rw [leaves] at pairs
    exact Or.inr (Or.inr pairs)

/-- A transaction that moves nothing. -/
def idle (version : Int32) : Transaction := ⟨version, [], [], 0⟩

/-- A block of three such transactions, under the root of a tree whose second pair is filled up. -/
def threeIdle (size nonce : Int32) : Block where
  size := size
  header :=
    { version := 1
      prevBlock := FixedBytes.zero 32
      merkleRoot := doubleSha256Pair (doubleSha256Pair (idle 0).id (idle 1).id)
        (doubleSha256Pair (idle 2).id (FixedBytes.zero 32))
      timestamp := 0
      target := 0
      nonce := nonce }
  transactions := [idle 0, idle 1, idle 2]

theorem checkBlock_threeIdle {validator : Validator} (room : 168 ≤ validator.limit)
    (size nonce : Int32) :
    validator.checkBlock (threeIdle size nonce).encode = .ok (threeIdle size nonce) := by
  have length : (threeIdle size nonce).encode.length = 168 := by
    simp only [encode, BlockHeader.encode, List.length_append, LittleEndian.length_ofInt32,
      LittleEndian.length_ofInt64, FixedBytes.length_toBytes]
    rfl
  have height : MerkleTree.height 3 = 2 := by
    rw [MerkleTree.height_of_lt (by decide), MerkleTree.height_of_le (by decide)]
  refine Validator.checkBlock_eq_ok_iff.mpr ⟨by omega, rfl, List.cons_ne_nil _ _, ?_⟩
  show MerkleTree.row _ (MerkleTree.height 3) = _
  rw [height]
  rfl

/-- Under two limits, one of them exact, blocks of different sizes and headers are bound alike. -/
theorem checked_binds_threeIdle :
    Validator.default.checkBlock (threeIdle 0 1).encode = .ok (threeIdle 0 1) ∧
      (Validator.mk ⟨168, 0⟩ (by decide)).checkBlock (threeIdle 168 2).encode =
        .ok (threeIdle 168 2) ∧
      ((threeIdle 0 1).transactions = (threeIdle 168 2).transactions ∨
        (threeIdle 0 1).Collides (threeIdle 168 2)) := by
  have first := checkBlock_threeIdle (show 168 ≤ Validator.default.limit by decide) 0 1
  have second := checkBlock_threeIdle
    (show 168 ≤ (Validator.mk ⟨168, 0⟩ (by decide)).limit by decide) 168 2
  exact ⟨first, second, checked_binds first second rfl rfl⟩

end Block

end Utxo
