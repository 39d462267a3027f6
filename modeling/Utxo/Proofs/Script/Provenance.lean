/-
**Where the operands on the stack come from.**

* `Operand.Genuine`: an operand that was pushed as it is, or the digest of a public key that was.
* `Operand.Step.genuine`, `Operand.Step.length_add`: what one passing operand does to the stack's operands
  and to their number; `Program.Runs.genuine`, `Program.Runs.length_add`: what a run does, by induction on it.
* `Program.Reaches`: the points that a run from the empty stack comes by; `Program.reaches_of_ok`,
  `Program.reaches_of_error`: every run ends at one.
* `Program.evaluate_unforged`: at every such point, each operand is genuine, and each signature that passed
  was one of the program's by one of its keys.
-/

import Utxo.Proofs.Script.Halting
import Utxo.Proofs.Script.PayToKeyHash

namespace Utxo

/-! ### Genuine operands -/

/-- **Where an operand of the stack comes from**, given the operands that were executed. It is one of
their pushes, unchanged; or it is the digest of a public key that one of them pushed. -/
inductive Operand.Genuine (executed : Program) : Operand → Prop
  | literal {kind : PushKind} {data : Bytes} (pushed : .push kind data ∈ executed) :
      Genuine executed (.push kind data)
  | hashed {key : Bytes} (pushed : .push .publicKey key ∈ executed) :
      Genuine executed (.push .publicKeyHash (Utxo.hash160 key).toBytes)

/-- Every operand of the stack is genuine. -/
def Stack.Genuine (executed : Program) (stack : Stack) : Prop :=
  ∀ operand ∈ stack, operand.Genuine executed

namespace Program

/-- How many operands a program puts on the stack: what it pushes, and its copies. -/
def added (program : Program) : Nat :=
  program.countP Operand.isPush + program.count (.control .duplicate)

/-- How many operands a program takes from the stack: two for each comparison, and two for each check. -/
def removed (program : Program) : Nat :=
  2 * (program.count (.control .equalVerify) + program.count (.control .checkSig))

theorem added_cons (operand : Operand) (rest : Program) :
    added (operand :: rest) = added [operand] + added rest := by
  unfold added
  rw [List.countP_cons, List.count_cons, List.countP_singleton, List.count_singleton]
  omega

theorem removed_cons (operand : Operand) (rest : Program) :
    removed (operand :: rest) = removed [operand] + removed rest := by
  unfold removed
  simp only [List.count_cons, List.count_nil]
  omega

end Program

namespace Operand

variable {executed more : Program} {operand : Operand}

theorem Genuine.mono (genuine : operand.Genuine executed) (grows : executed ⊆ more) :
    operand.Genuine more := by
  cases genuine with
  | literal pushed => exact .literal (grows pushed)
  | hashed pushed => exact .hashed (grows pushed)

/-- Only digests can be anything but pushed. -/
theorem Genuine.mem_of_ne {kind : PushKind} {data : Bytes}
    (genuine : Genuine executed (.push kind data)) (noHash : kind ≠ .publicKeyHash) :
    .push kind data ∈ executed := by
  cases genuine with
  | literal pushed => exact pushed
  | hashed pushed => exact absurd rfl noHash

variable [SignatureScheme] {digest : Hash} {stack after : Stack}

/-- **One operand forges nothing**: what it leaves lay there before, or is what it pushes itself, or is
the digest of a key that lay there. -/
theorem Step.genuine (step : operand.Step digest stack after) (genuine : stack.Genuine executed) :
    Stack.Genuine (executed ++ [operand]) after := by
  have kept : Stack.Genuine (executed ++ [operand]) stack :=
    fun element member => (genuine element member).mono (List.subset_append_left _ _)
  unfold Stack.Genuine at kept ⊢
  cases step with
  | push kind data =>
    refine List.forall_mem_cons.mpr ⟨.literal ?_, kept⟩
    exact List.mem_append_right executed (List.mem_singleton_self _)
  | duplicate key below => exact List.forall_mem_cons.mpr ⟨kept _ List.mem_cons_self, kept⟩
  | hash160 key below =>
    have pushed := (genuine _ List.mem_cons_self).mem_of_ne (by decide)
    refine List.forall_mem_cons.mpr ⟨.hashed (List.mem_append_left _ pushed), ?_⟩
    exact (List.forall_mem_cons.mp kept).2
  | equalVerify first second below same =>
    exact (List.forall_mem_cons.mp (List.forall_mem_cons.mp kept).2).2
  | checkSig key signature below verifies =>
    exact (List.forall_mem_cons.mp (List.forall_mem_cons.mp kept).2).2

/-- **One operand's effect on the height of the stack.** -/
theorem Step.length_add (step : operand.Step digest stack after) :
    after.length + Program.removed [operand] = stack.length + Program.added [operand] := by
  cases step <;> rfl

end Operand

namespace Program

section AnyScheme

variable [SignatureScheme] {digest : Hash} {executed program : Program} {operand : Operand}
  {stack after left : Stack} {position place : Nat}

/-! ### Runs -/

/-- **A run forges nothing**, behind operands that were executed before. -/
theorem Runs.genuine (runs : Runs digest program stack after) (genuine : stack.Genuine executed) :
    Stack.Genuine (executed ++ program) after := by
  induction runs generalizing executed with
  | nil stack => simpa using genuine
  | cons step _ ih => simpa using ih (step.genuine genuine)

/-- **A run's effect on the height of the stack.** -/
theorem Runs.length_add (runs : Runs digest program stack after) :
    after.length + removed program = stack.length + added program := by
  induction runs with
  | nil stack => rfl
  | cons step _ ih =>
    have here := step.length_add
    rw [added_cons, removed_cons]
    omega

/-- Each operand of a run passes on the stack that those before it leave. -/
theorem Runs.exists_step (runs : Runs digest program stack after)
    (found : program[place]? = some operand) :
    ∃ before behind, Runs digest (program.take place) stack before ∧
      operand.Step digest before behind := by
  rw [eq_take_append_drop found] at runs
  obtain ⟨before, front, _ | ⟨step, back⟩⟩ := runs_append.mp runs
  exact ⟨before, _, front, step⟩

/-! ### The points that a run comes by -/

/-- **The run of a program comes by a stack**: so many of its operands pass, one behind the other, from
the empty stack. -/
structure Reaches (digest : Hash) (program : Program) (position : Nat) (stack : Stack) : Prop where
  position_le : position ≤ program.length
  passed : Runs digest (program.take position) [] stack

/-- From there, the run goes on with the operands that are left. -/
theorem Reaches.evaluate_eq (reaches : Reaches digest program position stack)
    (nonempty : program ≠ []) :
    evaluate digest program [] = runFrom digest position (program.drop position) stack := by
  have length := List.length_take_of_le reaches.position_le
  have goesOn := runFrom_append_of_runs reaches.passed 0 (program.drop position)
  rw [List.take_append_drop, length, Nat.zero_add] at goesOn
  rw [evaluate_of_ne_nil nonempty, goesOn]

theorem Runs.reaches (runs : Runs digest program [] after) :
    Reaches digest program program.length after := by
  refine ⟨Nat.le_refl _, ?_⟩
  rw [List.take_length]
  exact runs

theorem HaltsAt.reaches {halt : Halt} (ends : HaltsAt digest program [] position halt left) :
    Reaches digest program position left :=
  ⟨Nat.le_of_lt ends.lt_length, ends.passed⟩

/-- **A run that has a verdict ends at a point that it comes by**: behind the last operand, or in front of
the one that says no. -/
theorem reaches_of_ok {verdict : Verdict} (ran : evaluate digest program [] = .ok verdict left) :
    ∃ position, Reaches digest program position left := by
  by_cases empty : program = []
  · subst empty
    cases ran
    exact ⟨0, Nat.le_refl 0, .nil []⟩
  cases verdict with
  | accepted => exact ⟨_, (evaluate_eq_accepted_iff.mp ran).2.reaches⟩
  | rejected position reason => exact ⟨position, ((evaluate_eq_rejected_iff empty).mp ran).reaches⟩

/-- **So does a run that fails**: in front of the operand that does. -/
theorem reaches_of_error {fault : ScriptError} (ran : evaluate digest program [] = .error fault left) :
    ∃ position, Reaches digest program position left := by
  obtain ⟨position, ends⟩ := evaluate_eq_error_iff.mp ran
  exact ⟨position, ends.reaches⟩

theorem Reaches.genuine (reaches : Reaches digest program position stack) :
    stack.Genuine (program.take position) := by
  have nothing : Stack.Genuine [] [] := by simp [Stack.Genuine]
  exact reaches.passed.genuine nothing

/-- **A signature that passed is one of the program's, by one of its keys**: these lay on top when it was
checked. -/
theorem Reaches.exists_checked (reaches : Reaches digest program position stack)
    (before : place < position) (found : program[place]? = some (.control .checkSig)) :
    ∃ key signature below,
      Reaches digest program place (.push .publicKey key :: .push .signature signature :: below) ∧
        .push .publicKey key ∈ program.take place ∧
        .push .signature signature ∈ program.take place ∧
        SignatureScheme.verify key signature digest = .ok true := by
  have executed : (program.take position)[place]? = some (.control .checkSig) := by
    rw [List.getElem?_take_of_lt before, found]
  obtain ⟨here, below, passed, step⟩ := reaches.passed.exists_step executed
  rw [List.take_take, Nat.min_eq_left (Nat.le_of_lt before)] at passed
  have reached : Reaches digest program place here :=
    ⟨Nat.le_trans (Nat.le_of_lt before) reaches.position_le, passed⟩
  cases step with
  | checkSig key signature _ verifies =>
    have keyed := reached.genuine _ List.mem_cons_self
    have signed := reached.genuine _ (List.mem_cons_of_mem _ List.mem_cons_self)
    exact ⟨key, signature, below, reached, keyed.mem_of_ne (by decide), signed.mem_of_ne (by decide),
      verifies⟩

/-- **Nothing on the stack is forged.** A run from the empty stack ends at a point that it comes by. At
every such point, the run goes on with the operands that are left; each operand of the stack is a literal
push among those executed, or the digest of a public key that is one; the stack is as high as pushes and
copies make it, less two for each comparison and each check; and each check that passed verified, of the
digest given, a signature among the pushes in front of it by a public key among them. -/
theorem evaluate_unforged (digest : Hash) (program : Program) :
    (∀ verdict left, evaluate digest program [] = .ok verdict left →
      ∃ position, Reaches digest program position left) ∧
    (∀ fault left, evaluate digest program [] = .error fault left →
      ∃ position, Reaches digest program position left) ∧
    ∀ position stack, Reaches digest program position stack →
      (program ≠ [] →
        evaluate digest program [] = runFrom digest position (program.drop position) stack) ∧
      (∀ operand ∈ stack, operand.Genuine (program.take position)) ∧
      stack.length + removed (program.take position) = added (program.take position) ∧
      ∀ place < position, program[place]? = some (.control .checkSig) →
        ∃ key signature below,
          Reaches digest program place
            (.push .publicKey key :: .push .signature signature :: below) ∧
          .push .publicKey key ∈ program.take place ∧
          .push .signature signature ∈ program.take place ∧
          SignatureScheme.verify key signature digest = .ok true := by
  refine ⟨fun verdict left ran => reaches_of_ok ran, fun fault left ran => reaches_of_error ran,
    fun position stack reaches => ⟨reaches.evaluate_eq, reaches.genuine, ?_, ?_⟩⟩
  · have height := reaches.passed.length_add
    rwa [List.length_nil, Nat.zero_add] at height
  · exact fun place before found => reaches.exists_checked before found

end AnyScheme

/-! ### A key that is paid and signs -/

/-- Pays to the generator as a key, and spends it. -/
def paidAndSpent : Program :=
  PayToKeyHash.unlocking PayToKeyHash.generatorSignature PayToKeyHash.generatorKey ++
    PayToKeyHash.locking (hash160 PayToKeyHash.generatorKey)

/-- Below the digest that is paid to lie the one that was made, the key and the signature; all of them are
taken away again, and the check at the end is of this signature by this key. The other program takes its
key away itself, and fails in front of the check. -/
theorem evaluate_unforged_paidAndSpent :
    evaluate (FixedBytes.zero 32) paidAndSpent [] = .ok .accepted [] ∧
      (∃ position, Reaches (FixedBytes.zero 32) paidAndSpent position []) ∧
      evaluate (FixedBytes.zero 32) comparedAway [] =
        .error (.underflow (.control .checkSig) 2 0) [] ∧
      (∃ position, Reaches (FixedBytes.zero 32) comparedAway position []) ∧
      (∀ operand ∈ ([.push .publicKeyHash (hash160 PayToKeyHash.generatorKey).toBytes,
          .push .publicKeyHash (hash160 PayToKeyHash.generatorKey).toBytes,
          .push .publicKey PayToKeyHash.generatorKey,
          .push .signature PayToKeyHash.generatorSignature] : Stack),
        operand.Genuine (paidAndSpent.take 5)) ∧
      ∃ key signature, .push .publicKey key ∈ paidAndSpent.take 6 ∧
        .push .signature signature ∈ paidAndSpent.take 6 ∧
        SignatureScheme.verify key signature (FixedBytes.zero 32) = .ok true := by
  obtain ⟨ends, -, points⟩ := evaluate_unforged (FixedBytes.zero 32) paidAndSpent
  have pushed : Runs (FixedBytes.zero 32) (paidAndSpent.take 5) [] _ :=
    .cons (.push ..) (.cons (.push ..) (.cons (.duplicate ..) (.cons (.hash160 ..)
      (.cons (.push ..) (.nil _)))))
  have whole : Runs (FixedBytes.zero 32) (paidAndSpent.take 5 ++ paidAndSpent.drop 5) [] [] := by
    refine runs_append.mpr ⟨_, pushed, .cons (.equalVerify _ _ _ rfl) (.cons ?_ (.nil []))⟩
    exact .checkSig _ _ _ PayToKeyHash.verify_generatorSignature
  rw [List.take_append_drop] at whole
  have accepted := evaluate_eq_accepted_iff.mpr ⟨List.cons_ne_nil _ _, whole⟩
  have failed : evaluate (FixedBytes.zero 32) comparedAway [] =
      .error (.underflow (.control .checkSig) 2 0) [] := rfl
  refine ⟨accepted, ends _ _ accepted, failed, ?_, ?_, ?_⟩
  · exact (evaluate_unforged (FixedBytes.zero 32) comparedAway).2.1 _ _ failed
  · exact (points 5 _ ⟨by decide, pushed⟩).2.1
  · obtain ⟨key, signature, -, -, byKey, made, verifies⟩ :=
      (points 7 [] whole.reaches).2.2.2 6 (by decide) rfl
    exact ⟨key, signature, byKey, made, verifies⟩

end Program

end Utxo
