/-
**Programs, one behind the other.**

* `Verdict.behind`: a verdict of the second program, its position counted from the start of the first.
* `Program.runFrom_add`: a run that starts later says the same, later.
* `Program.evaluate_append_of_accepted`: behind a program that is accepted, the second goes on with its
  stack.
* `Program.HaltsAt.congr`: what stands behind the operand that halts is not looked at.
* `Program.evaluate_composes`: these together, for programs and for verification.
-/

import Utxo.Proofs.Script.Halting

namespace Utxo

/-- A verdict on operands that stand behind so many others. -/
def Verdict.behind (count : Nat) : Verdict → Verdict
  | .accepted => .accepted
  | .rejected position reason => .rejected (count + position) reason

namespace Program

section AnyScheme

variable [SignatureScheme] {digest : Hash} {first second program other : Program}
  {stack between left : Stack} {position : Nat} {halt : Halt}

/-! ### Behind a program that is accepted -/

/-- **A run that starts later says the same, later.** -/
theorem runFrom_add (count position : Nat) (program : Program) (stack : Stack) :
    runFrom digest (count + position) program stack =
      (Verdict.behind count <$> runFrom digest position program) stack := by
  rcases runs_or_haltsAt digest program stack with ⟨after, runs⟩ | ⟨place, halt, left, ends⟩
  · rw [runFrom_eq_accepted_iff.mpr runs]
    exact (Machine.map_of_ok (Verdict.behind count) (runFrom_eq_accepted_iff.mpr runs)).symm
  · rw [ends.runFrom_eq, Nat.add_assoc]
    have later := ends.runFrom_eq position
    cases halt with
    | refusal reason => exact (Machine.map_of_ok (Verdict.behind count) later).symm
    | failure fault => exact (Machine.map_of_error (Verdict.behind count) later).symm

/-- **Behind an accepted program, the second goes on with the stack that it left.** -/
theorem evaluate_append_of_accepted
    (accepted : evaluate digest first stack = .ok .accepted between) (nonempty : second ≠ []) :
    evaluate digest (first ++ second) stack =
      (Verdict.behind first.length <$> evaluate digest second) between := by
  have runs := (evaluate_eq_accepted_iff.mp accepted).2
  rw [evaluate_of_ne_nil (append_ne_nil first nonempty), runFrom_append_of_runs runs, Nat.zero_add,
    evaluate_of_ne_nil nonempty, ← Nat.add_zero first.length, runFrom_add]
  rfl

/-! ### Behind an operand that halts -/

/-- **What stands behind the operand that halts is not looked at.** -/
theorem HaltsAt.congr (ends : HaltsAt digest program stack position halt left)
    (same : other.take (position + 1) = program.take (position + 1)) :
    HaltsAt digest other stack position halt left := by
  have before : other.take position = program.take position := by
    have taken := congrArg (List.take position) same
    rwa [List.take_take, List.take_take, Nat.min_eq_left (Nat.le_succ position)] at taken
  have here : other[position]? = program[position]? := by
    have found := congrArg (fun operands => operands[position]?) same
    rwa [List.getElem?_take_of_succ, List.getElem?_take_of_succ] at found
  refine ⟨?_, ?_⟩
  · rw [before]
    exact ends.passed
  · rw [here]
    exact ends.halted

theorem HaltsAt.append (ends : HaltsAt digest first stack position halt left) (second : Program) :
    HaltsAt digest (first ++ second) stack position halt left :=
  ends.congr (List.take_append_of_le_length ends.lt_length)

theorem HaltsAt.evaluate_congr (ends : HaltsAt digest program stack position halt left)
    (same : other.take (position + 1) = program.take (position + 1)) :
    evaluate digest other stack = evaluate digest program stack := by
  rw [ends.evaluate_eq, (ends.congr same).evaluate_eq]

theorem verify_congr {unlocking locking first second : Program}
    (ends : HaltsAt digest (unlocking ++ locking) [] position halt left)
    (same : (first ++ second).take (position + 1) = (unlocking ++ locking).take (position + 1)) :
    verify first second digest = verify unlocking locking digest :=
  answer_congr (ends.evaluate_congr same)

/-! ### Programs and verification -/

/-- **Programs are evaluated one behind the other.** Behind an accepted program, a second one that asks
for something says what it says by itself on the stack that was left, its position counted from the start
of the first. A program that says no or fails does so whatever stands behind it, with the same stack.
Verification accepts only if every operand of both programs passes, and nothing behind the first operand
that does not pass has any influence. -/
theorem evaluate_composes (digest : Hash) :
    (∀ (first : Program) (stack : Stack), first ≠ [] →
      (∀ between, evaluate digest first stack = .ok .accepted between →
        ∀ second, second ≠ [] → evaluate digest (first ++ second) stack =
          (Verdict.behind first.length <$> evaluate digest second) between) ∧
      (∀ position reason left,
        evaluate digest first stack = .ok (.rejected position reason) left →
          ∀ second, evaluate digest (first ++ second) stack =
            .ok (.rejected position reason) left) ∧
      ∀ fault left, evaluate digest first stack = .error fault left →
        ∀ second, evaluate digest (first ++ second) stack = .error fault left) ∧
    (∀ unlocking locking, verify unlocking locking digest = .ok .accepted →
      ∃ left after, Runs digest unlocking [] left ∧ Runs digest locking left after) ∧
    (∀ (program : Program) (stack : Stack) (position : Nat) (halt : Halt) (left : Stack),
      HaltsAt digest program stack position halt left →
        ∀ other : Program, other.take (position + 1) = program.take (position + 1) →
          evaluate digest other stack = evaluate digest program stack) ∧
    ∀ (unlocking locking : Program) (position : Nat) (halt : Halt) (left : Stack),
      HaltsAt digest (unlocking ++ locking) [] position halt left →
        ∀ first second : Program,
          (first ++ second).take (position + 1) = (unlocking ++ locking).take (position + 1) →
            verify first second digest = verify unlocking locking digest := by
  refine ⟨fun first stack nonempty => ⟨?_, ?_, ?_⟩, ?_, ?_, ?_⟩
  · exact fun between accepted second asks => evaluate_append_of_accepted accepted asks
  · intro position reason left rejected second
    have ends := (evaluate_eq_rejected_iff nonempty).mp rejected
    exact (ends.append second).evaluate_eq
  · intro fault left failed second
    obtain ⟨position, ends⟩ := evaluate_eq_error_iff.mp failed
    exact (ends.append second).evaluate_eq
  · exact fun unlocking locking accepted => (verify_eq_accepted_iff_runs.mp accepted).2
  · exact fun program stack position halt left ends other same => ends.evaluate_congr same
  · exact fun unlocking locking position halt left ends first second same => verify_congr ends same

end AnyScheme

/-- A key and its copy. -/
def copiedKey : Program := [.push .publicKey [2], .control .duplicate]

/-- The key and its copy are taken away before a key is asked for again. -/
def comparedAndHashed : Program := [.control .equalVerify, .control .hash160]

/-- Over a signature: the second program is refused at its second operand, which is the fourth of both;
two programs that halt are not looked at any further; and two that pass are accepted together. -/
theorem evaluate_composes_overSignature :
    evaluate (FixedBytes.zero 32) (copiedKey ++ comparedAndHashed) [.push .signature [7]] =
        .ok (.rejected 3 .notAPublicKey) [.push .signature [7]] ∧
      evaluate (FixedBytes.zero 32) (hashedTwice ++ copiedKey) [.push .signature [7]] =
        .ok (.rejected 2 .notAPublicKey)
          [.push .publicKeyHash (hash160 [2]).toBytes, .push .signature [7]] ∧
      evaluate (FixedBytes.zero 32) (comparedAway ++ copiedKey) [.push .signature [7]] =
        .error (.underflow (.control .checkSig) 2 1) [.push .signature [7]] ∧
      (∃ left after, Runs (FixedBytes.zero 32) copiedKey [] left ∧
        Runs (FixedBytes.zero 32) [.control .equalVerify] left after) ∧
      evaluate (FixedBytes.zero 32) (hashedTwice.take 3 ++ copiedKey) [.push .signature [7]] =
        evaluate (FixedBytes.zero 32) hashedTwice [.push .signature [7]] ∧
      verify [.control .duplicate] copiedKey (FixedBytes.zero 32) =
        verify [] [.control .duplicate] (FixedBytes.zero 32) := by
  obtain ⟨behind, accepts, halts, verifies⟩ := evaluate_composes (FixedBytes.zero 32)
  have ends : HaltsAt (FixedBytes.zero 32) hashedTwice [.push .signature [7]] 2
      (.refusal .notAPublicKey)
      [.push .publicKeyHash (hash160 [2]).toBytes, .push .signature [7]] :=
    (evaluate_eq_rejected_iff (List.cons_ne_nil _ _)).mp rfl
  have nothing : HaltsAt (FixedBytes.zero 32) ([] ++ [.control .duplicate]) [] 0
      (.failure (.underflow (.control .duplicate) 1 0)) [] :=
    haltsAt_head .duplicateNothing []
  refine ⟨?_, ?_, ?_, ?_, ?_, ?_⟩
  · exact (behind copiedKey _ (List.cons_ne_nil _ _)).1 _ rfl comparedAndHashed
      (List.cons_ne_nil _ _)
  · exact (behind hashedTwice _ (List.cons_ne_nil _ _)).2.1 _ _ _ rfl copiedKey
  · exact (behind comparedAway _ (List.cons_ne_nil _ _)).2.2 _ _ rfl copiedKey
  · exact accepts copiedKey [.control .equalVerify] rfl
  · exact halts _ _ _ _ _ ends _ rfl
  · exact verifies [] [.control .duplicate] 0 _ _ nothing [.control .duplicate] copiedKey rfl

end Program

end Utxo
