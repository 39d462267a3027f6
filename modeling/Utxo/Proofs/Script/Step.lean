/-
**What an operand does to the stack.**

* `Operand.Step`: the five ways to pass, as a relation between the stacks before and after.
* `Operand.Halts`: the eleven ways not to pass, each with what is then reported.
* `Operand.step_or_halts`: there is no other way; `Operand.execute_eq_pass_iff`,
  `Operand.execute_eq_outcome_iff`: running an operand passes just as `Step` says, and else halts just as
  `Halts` says, on the stack that it found.
* `Control.compareTop_of_two`, `Control.checkTop_of_keyed`: what the two instructions that can refuse
  answer, given the operands that they ask for.
-/

import Utxo.Script.Machine

namespace Utxo

/-! ### Moves -/

section Moves

variable {α β : Type} {stack between : Stack}

/-- A machine goes on from where its first part ended. -/
theorem Machine.bind_of_ok {first : Machine α} {next : α → Machine β} {value : α}
    (ran : first stack = .ok value between) : (first >>= next) stack = next value between := by
  change EStateM.bind first next stack = _
  rw [EStateM.bind, ran]

theorem Machine.bind_of_error {first : Machine α} {next : α → Machine β} {fault : ScriptError}
    (ran : first stack = .error fault between) : (first >>= next) stack = .error fault between := by
  change EStateM.bind first next stack = _
  rw [EStateM.bind, ran]

theorem Machine.map_of_ok (change : α → β) {first : Machine α} {value : α}
    (ran : first stack = .ok value between) :
    (change <$> first) stack = .ok (change value) between := by
  show EStateM.map change first stack = _
  rw [EStateM.map, ran]

theorem Machine.map_of_error (change : α → β) {first : Machine α} {fault : ScriptError}
    (ran : first stack = .error fault between) :
    (change <$> first) stack = .error fault between := by
  show EStateM.map change first stack = _
  rw [EStateM.map, ran]

namespace Stack

theorem require_of_le {opcode : Opcode} {needed : Nat} (enough : needed ≤ stack.length) :
    require opcode needed stack = .ok () stack := by
  show (if stack.length < needed then _ else _ : Machine Unit) stack = _
  rw [if_neg (Nat.not_lt.mpr enough)]
  rfl

theorem require_of_lt {opcode : Opcode} {needed : Nat} (short : stack.length < needed) :
    require opcode needed stack = .error (.underflow opcode needed stack.length) stack := by
  show (if stack.length < needed then _ else _ : Machine Unit) stack = _
  rw [if_pos short]
  rfl

theorem exists_two_of_le (enough : 2 ≤ stack.length) :
    ∃ first second below, stack = first :: second :: below := by
  match stack, enough with
  | first :: second :: below, _ => exact ⟨first, second, below, rfl⟩

theorem popTwo_of_two (opcode : Opcode) (first second : Operand) (below : Stack) :
    popTwo opcode (first :: second :: below) = .ok () below := by
  have enough : 2 ≤ (first :: second :: below).length := by simp
  rw [popTwo, Machine.bind_of_ok (require_of_le enough)]
  rfl

end Stack

end Moves

/-- An operand with a push's opcode is that push. -/
theorem Operand.eq_push_of_opcode {operand : Operand} {kind : PushKind}
    (is : operand.opcode = .push kind) : operand = .push kind operand.data := by
  cases operand with
  | push other data =>
    cases is
    rfl
  | control instruction => cases is

/-- An operand that is no public key is a push of another kind or an instruction. -/
@[elab_as_elim]
theorem Operand.cases_of_unkeyed {motive : Operand → Prop} {operand : Operand}
    (noKey : operand.opcode ≠ .push .publicKey) (signature : ∀ data, motive (.push .signature data))
    (publicKeyHash : ∀ data, motive (.push .publicKeyHash data))
    (control : ∀ instruction, motive (.control instruction)) : motive operand := by
  rcases operand with ⟨kind, data⟩ | instruction
  · cases kind with
    | signature => exact signature data
    | publicKey => exact absurd rfl noKey
    | publicKeyHash => exact publicKeyHash data
  · exact control instruction

/-! ### The instructions, given the operands that they ask for -/

namespace Control

theorem hashTop_nil : hashTop [] = .error (.underflow (.control .hash160) 1 0) [] := rfl

theorem hashTop_of_keyed (key : Bytes) (below : Stack) :
    hashTop (.push .publicKey key :: below) =
      .ok .pass (.push .publicKeyHash (Utxo.hash160 key).toBytes :: below) :=
  rfl

/-- An operand that is no public key stays. -/
theorem hashTop_of_unkeyed {top : Operand} (noKey : top.opcode ≠ .push .publicKey) (below : Stack) :
    hashTop (top :: below) = .ok (.fail .notAPublicKey) (top :: below) := by
  exact Operand.cases_of_unkeyed noKey (fun _ => rfl) (fun _ => rfl) fun _ => rfl

theorem compareTop_of_short {stack : Stack} (short : stack.length < 2) :
    compareTop stack = .error (.underflow (.control .equalVerify) 2 stack.length) stack := by
  rw [compareTop, Machine.bind_of_error (Stack.require_of_lt short)]

/-- Two operands are taken away when their data are the same, and stay when not. -/
theorem compareTop_of_two (first second : Operand) (below : Stack) :
    compareTop (first :: second :: below) =
      if first.data = second.data then .ok .pass below
      else .ok (.fail .notEqual) (first :: second :: below) := by
  have enough : 2 ≤ (first :: second :: below).length := by simp
  rw [compareTop, Machine.bind_of_ok (Stack.require_of_le enough)]
  show (if first.data = second.data then _ else _ : Machine Outcome) (first :: second :: below) = _
  split
  · rw [Machine.bind_of_ok (Stack.popTwo_of_two _ first second below)]
    rfl
  · rfl

variable [SignatureScheme]

/-- A key above a signature are taken away when the signature verifies, and stay when not. -/
theorem checkTop_of_keyed (digest : Hash) (key signature : Bytes) (below : Stack) :
    checkTop digest (.push .publicKey key :: .push .signature signature :: below) =
      match SignatureScheme.verify key signature digest with
      | .ok true => .ok .pass below
      | .ok false => .ok (.fail .signatureInvalid)
          (.push .publicKey key :: .push .signature signature :: below)
      | .error fault => .error (.signature fault)
          (.push .publicKey key :: .push .signature signature :: below) := by
  have enough : 2 ≤ (Operand.push .publicKey key :: .push .signature signature :: below).length := by
    simp
  rw [checkTop, Machine.bind_of_ok (Stack.require_of_le enough)]
  show (match SignatureScheme.verify key signature digest with
    | .ok true => _
    | .ok false => _
    | .error fault => _ : Machine Outcome) _ = _
  rcases SignatureScheme.verify key signature digest with fault | verifies
  · rfl
  · cases verifies
    · rfl
    · exact Machine.bind_of_ok (Stack.popTwo_of_two _ _ _ below)

theorem checkTop_of_short (digest : Hash) {stack : Stack} (short : stack.length < 2) :
    checkTop digest stack = .error (.underflow (.control .checkSig) 2 stack.length) stack := by
  rw [checkTop, Machine.bind_of_error (Stack.require_of_lt short)]

/-- Below a public key there has to be a signature. -/
theorem checkTop_of_unsigned (digest : Hash) (key : Bytes) {second : Operand}
    (unsigned : second.opcode ≠ .push .signature) (below : Stack) :
    checkTop digest (.push .publicKey key :: second :: below) =
      .error (.typeMismatch (.control .checkSig) (.push .signature) second.opcode)
        (.push .publicKey key :: second :: below) := by
  have enough : 2 ≤ (Operand.push .publicKey key :: second :: below).length := by simp
  rw [checkTop, Machine.bind_of_ok (Stack.require_of_le enough)]
  rcases second with ⟨kind, data⟩ | instruction
  · cases kind with
    | signature => exact absurd rfl unsigned
    | publicKey => rfl
    | publicKeyHash => rfl
  · rfl

/-- What lies on top has to be a public key, whatever lies below. -/
theorem checkTop_of_unkeyed (digest : Hash) {top : Operand} (noKey : top.opcode ≠ .push .publicKey)
    (second : Operand) (below : Stack) :
    checkTop digest (top :: second :: below) =
      .error (.typeMismatch (.control .checkSig) (.push .publicKey) top.opcode)
        (top :: second :: below) := by
  have enough : 2 ≤ (top :: second :: below).length := by simp
  rw [checkTop, Machine.bind_of_ok (Stack.require_of_le enough)]
  exact Operand.cases_of_unkeyed noKey (fun _ => rfl) (fun _ => rfl) fun _ => rfl

theorem duplicate_nil (digest : Hash) :
    execute digest .duplicate [] = .error (.underflow (.control .duplicate) 1 0) [] :=
  rfl

/-- Nothing but a public key is copied. -/
theorem duplicate_of_unkeyed (digest : Hash) {top : Operand}
    (noKey : top.opcode ≠ .push .publicKey) (below : Stack) :
    execute digest .duplicate (top :: below) =
      .error (.typeMismatch (.control .duplicate) (.push .publicKey) top.opcode) (top :: below) := by
  exact Operand.cases_of_unkeyed noKey (fun _ => rfl) (fun _ => rfl) fun _ => rfl

end Control

/-! ### Passing and halting -/

/-- **How an operand ends that does not pass**: it says no, or it has no answer. -/
inductive Halt
  | refusal (reason : RejectReason)
  | failure (fault : ScriptError)
deriving DecidableEq

/-- What the operand answers, on the stack that it found. -/
def Halt.outcome (stack : Stack) : Halt → EStateM.Result ScriptError Stack Outcome
  | .refusal reason => .ok (.fail reason) stack
  | .failure fault => .error fault stack

variable [SignatureScheme]

/-- **One passing operand**, from the stack before it to the one behind it. -/
inductive Operand.Step (digest : Hash) : Operand → Stack → Stack → Prop
  | push (kind : PushKind) (data : Bytes) (stack : Stack) :
      Step digest (.push kind data) stack (.push kind data :: stack)
  | duplicate (key : Bytes) (below : Stack) :
      Step digest (.control .duplicate) (.push .publicKey key :: below)
        (.push .publicKey key :: .push .publicKey key :: below)
  | hash160 (key : Bytes) (below : Stack) :
      Step digest (.control .hash160) (.push .publicKey key :: below)
        (.push .publicKeyHash (Utxo.hash160 key).toBytes :: below)
  | equalVerify (first second : Operand) (below : Stack) (same : first.data = second.data) :
      Step digest (.control .equalVerify) (first :: second :: below) below
  | checkSig (key signature : Bytes) (below : Stack)
      (verifies : SignatureScheme.verify key signature digest = .ok true) :
      Step digest (.control .checkSig)
        (.push .publicKey key :: .push .signature signature :: below) below

/-- **One operand that does not pass**, on the stack that it finds. The number of operands is asked for
first, then what the top is, then what lies below it. -/
inductive Operand.Halts (digest : Hash) : Operand → Stack → Halt → Prop
  | duplicateNothing :
      Halts digest (.control .duplicate) [] (.failure (.underflow (.control .duplicate) 1 0))
  | duplicateUnkeyed (top : Operand) (below : Stack) (noKey : top.opcode ≠ .push .publicKey) :
      Halts digest (.control .duplicate) (top :: below)
        (.failure (.typeMismatch (.control .duplicate) (.push .publicKey) top.opcode))
  | hashNothing :
      Halts digest (.control .hash160) [] (.failure (.underflow (.control .hash160) 1 0))
  | hashUnkeyed (top : Operand) (below : Stack) (noKey : top.opcode ≠ .push .publicKey) :
      Halts digest (.control .hash160) (top :: below) (.refusal .notAPublicKey)
  | compareShort (stack : Stack) (short : stack.length < 2) :
      Halts digest (.control .equalVerify) stack
        (.failure (.underflow (.control .equalVerify) 2 stack.length))
  | compareUnequal (first second : Operand) (below : Stack) (differ : first.data ≠ second.data) :
      Halts digest (.control .equalVerify) (first :: second :: below) (.refusal .notEqual)
  | checkShort (stack : Stack) (short : stack.length < 2) :
      Halts digest (.control .checkSig) stack
        (.failure (.underflow (.control .checkSig) 2 stack.length))
  | checkUnkeyed (top second : Operand) (below : Stack) (noKey : top.opcode ≠ .push .publicKey) :
      Halts digest (.control .checkSig) (top :: second :: below)
        (.failure (.typeMismatch (.control .checkSig) (.push .publicKey) top.opcode))
  | checkUnsigned (key : Bytes) (second : Operand) (below : Stack)
      (unsigned : second.opcode ≠ .push .signature) :
      Halts digest (.control .checkSig) (.push .publicKey key :: second :: below)
        (.failure (.typeMismatch (.control .checkSig) (.push .signature) second.opcode))
  | checkMalformed (key signature : Bytes) (below : Stack) (fault : SignatureFault)
      (malformed : SignatureScheme.verify key signature digest = .error fault) :
      Halts digest (.control .checkSig)
        (.push .publicKey key :: .push .signature signature :: below) (.failure (.signature fault))
  | checkInvalid (key signature : Bytes) (below : Stack)
      (invalid : SignatureScheme.verify key signature digest = .ok false) :
      Halts digest (.control .checkSig)
        (.push .publicKey key :: .push .signature signature :: below) (.refusal .signatureInvalid)

namespace Operand

theorem Step.execute_eq {digest : Hash} {operand : Operand} {stack after : Stack}
    (step : Step digest operand stack after) : operand.execute digest stack = .ok .pass after := by
  cases step with
  | push kind data => rfl
  | duplicate key below => rfl
  | hash160 key below => exact Control.hashTop_of_keyed key below
  | equalVerify first second below same => exact (Control.compareTop_of_two ..).trans (if_pos same)
  | checkSig key signature below verifies =>
    refine (Control.checkTop_of_keyed ..).trans ?_
    rw [verifies]

/-- An operand that halts leaves the stack as it found it. -/
theorem Halts.execute_eq {digest : Hash} {operand : Operand} {stack : Stack} {halt : Halt}
    (halts : Halts digest operand stack halt) :
    operand.execute digest stack = halt.outcome stack := by
  cases halts with
  | duplicateNothing => exact Control.duplicate_nil digest
  | duplicateUnkeyed top below noKey => exact Control.duplicate_of_unkeyed digest noKey below
  | hashNothing => exact Control.hashTop_nil
  | hashUnkeyed top below noKey => exact Control.hashTop_of_unkeyed noKey below
  | compareShort _ short => exact Control.compareTop_of_short short
  | compareUnequal first second below differ =>
    exact (Control.compareTop_of_two ..).trans (if_neg differ)
  | checkShort _ short => exact Control.checkTop_of_short digest short
  | checkUnkeyed top second below noKey => exact Control.checkTop_of_unkeyed digest noKey second below
  | checkUnsigned key second below unsigned =>
    exact Control.checkTop_of_unsigned digest key unsigned below
  | checkMalformed key signature below fault malformed =>
    refine (Control.checkTop_of_keyed ..).trans ?_
    rw [malformed]
    rfl
  | checkInvalid key signature below invalid =>
    refine (Control.checkTop_of_keyed ..).trans ?_
    rw [invalid]
    rfl

/-- The operand passes in one of the five ways, or halts in one of the eleven. -/
def Decided (digest : Hash) (operand : Operand) (stack : Stack) : Prop :=
  (∃ after, Step digest operand stack after) ∨ ∃ halt, Halts digest operand stack halt

theorem decided_duplicate (digest : Hash) (stack : Stack) :
    Decided digest (.control .duplicate) stack := by
  rcases stack with _ | ⟨top, below⟩
  · exact Or.inr ⟨_, .duplicateNothing⟩
  · by_cases keyed : top.opcode = .push .publicKey
    · rw [eq_push_of_opcode keyed]
      exact Or.inl ⟨_, .duplicate top.data below⟩
    · exact Or.inr ⟨_, .duplicateUnkeyed top below keyed⟩

theorem decided_hash160 (digest : Hash) (stack : Stack) :
    Decided digest (.control .hash160) stack := by
  rcases stack with _ | ⟨top, below⟩
  · exact Or.inr ⟨_, .hashNothing⟩
  · by_cases keyed : top.opcode = .push .publicKey
    · rw [eq_push_of_opcode keyed]
      exact Or.inl ⟨_, .hash160 top.data below⟩
    · exact Or.inr ⟨_, .hashUnkeyed top below keyed⟩

theorem decided_equalVerify (digest : Hash) (stack : Stack) :
    Decided digest (.control .equalVerify) stack := by
  rcases Nat.lt_or_ge stack.length 2 with short | enough
  · exact Or.inr ⟨_, .compareShort stack short⟩
  · obtain ⟨first, second, below, rfl⟩ := Stack.exists_two_of_le enough
    by_cases same : first.data = second.data
    · exact Or.inl ⟨_, .equalVerify first second below same⟩
    · exact Or.inr ⟨_, .compareUnequal first second below same⟩

theorem decided_checkSig (digest : Hash) (stack : Stack) :
    Decided digest (.control .checkSig) stack := by
  rcases Nat.lt_or_ge stack.length 2 with short | enough
  · exact Or.inr ⟨_, .checkShort stack short⟩
  · obtain ⟨top, second, below, rfl⟩ := Stack.exists_two_of_le enough
    by_cases keyed : top.opcode = .push .publicKey
    · rw [eq_push_of_opcode keyed]
      by_cases signed : second.opcode = .push .signature
      · rw [eq_push_of_opcode signed]
        rcases answer : SignatureScheme.verify top.data second.data digest with fault | _ | _
        · exact Or.inr ⟨_, .checkMalformed _ _ below fault answer⟩
        · exact Or.inr ⟨_, .checkInvalid _ _ below answer⟩
        · exact Or.inl ⟨_, .checkSig _ _ below answer⟩
      · exact Or.inr ⟨_, .checkUnsigned _ second below signed⟩
    · exact Or.inr ⟨_, .checkUnkeyed top second below keyed⟩

/-- **An operand passes or halts.** -/
theorem step_or_halts (digest : Hash) (operand : Operand) (stack : Stack) :
    (∃ after, Step digest operand stack after) ∨ ∃ halt, Halts digest operand stack halt := by
  cases operand with
  | push kind data => exact Or.inl ⟨_, .push kind data stack⟩
  | control instruction =>
    cases instruction with
    | duplicate => exact decided_duplicate digest stack
    | hash160 => exact decided_hash160 digest stack
    | equalVerify => exact decided_equalVerify digest stack
    | checkSig => exact decided_checkSig digest stack

variable {digest : Hash} {operand : Operand} {stack after : Stack} {halt : Halt}

/-- **An operand passes just as `Step` says.** -/
theorem execute_eq_pass_iff :
    operand.execute digest stack = .ok .pass after ↔ Step digest operand stack after := by
  refine ⟨fun passed => ?_, Step.execute_eq⟩
  rcases step_or_halts digest operand stack with ⟨other, step⟩ | ⟨halt, halts⟩
  · rw [step.execute_eq] at passed
    cases passed
    exact step
  · rw [halts.execute_eq] at passed
    cases halt <;> cases passed

/-- **An operand halts just as `Halts` says**, on the stack that it found. -/
theorem execute_eq_outcome_iff :
    operand.execute digest stack = halt.outcome after ↔
      Halts digest operand stack halt ∧ after = stack := by
  constructor
  · intro ended
    rcases step_or_halts digest operand stack with ⟨other, step⟩ | ⟨other, halts⟩
    · rw [step.execute_eq] at ended
      cases halt <;> cases ended
    · rw [halts.execute_eq] at ended
      cases halt <;> cases other <;> cases ended <;> exact ⟨halts, rfl⟩
  · rintro ⟨halts, rfl⟩
    exact halts.execute_eq

end Operand

end Utxo
