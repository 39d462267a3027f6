/-
**Runs of programs.**

* `Program.Runs`: every operand passes, one behind the other.
* `Program.runFrom_eq_accepted_iff`, `Program.evaluate_eq_accepted_iff`: acceptance is such a run; the
  empty program is the one that runs and is not accepted.
* `Program.runFrom_append_of_runs`: behind a part that runs, a program goes on with the rest of its
  operands, which keep their positions.
-/

import Utxo.Proofs.Script.Step

namespace Utxo.Program

/-- An answer is what the machine yields from the empty stack. -/
theorem answer_eq_ok_iff {machine : Machine Verdict} {verdict : Verdict} :
    answer machine = .ok verdict ↔ ∃ after, machine [] = .ok verdict after := by
  rw [answer, EStateM.run]
  cases machine [] with
  | ok other after => simp
  | error fault after => simp

/-- An answer depends on the machine's end from the empty stack only. -/
theorem answer_congr {machine other : Machine Verdict} (same : machine [] = other []) :
    answer machine = answer other := by
  rw [answer, answer, EStateM.run, EStateM.run, same]

/-- A program around one of its operands. -/
theorem eq_take_append_drop {program : Program} {operand : Operand} {place : Nat}
    (found : program[place]? = some operand) :
    program = program.take place ++ operand :: program.drop (place + 1) := by
  obtain ⟨inside, rfl⟩ := List.getElem?_eq_some_iff.mp found
  rw [← List.drop_eq_getElem_cons, List.take_append_drop]

theorem append_ne_nil (unlocking : Program) {locking : Program} (nonempty : locking ≠ []) :
    unlocking ++ locking ≠ [] :=
  fun empty => nonempty (List.append_eq_nil_iff.mp empty).2

variable [SignatureScheme]

/-- **Every operand passes**, from the stack before the first to the one behind the last. -/
inductive Runs (digest : Hash) : Program → Stack → Stack → Prop
  | nil (stack : Stack) : Runs digest [] stack stack
  | cons {operand : Operand} {rest : Program} {stack between after : Stack}
      (step : operand.Step digest stack between) (runs : Runs digest rest between after) :
      Runs digest (operand :: rest) stack after

variable {digest : Hash} {first second program : Program} {stack between after : Stack}

theorem runs_append :
    Runs digest (first ++ second) stack after ↔
      ∃ between, Runs digest first stack between ∧ Runs digest second between after := by
  induction first generalizing stack with
  | nil =>
    constructor
    · exact fun runs => ⟨stack, .nil stack, runs⟩
    · rintro ⟨_, ⟨⟩, runs⟩
      exact runs
  | cons operand rest ih =>
    constructor
    · rintro (_ | ⟨step, runs⟩)
      obtain ⟨between, front, back⟩ := ih.mp runs
      exact ⟨between, .cons step front, back⟩
    · rintro ⟨between, _ | ⟨step, front⟩, back⟩
      exact .cons step (ih.mpr ⟨between, front, back⟩)

/-! ### One operand behind the other -/

/-- The first operand decides whether the rest is run. -/
theorem runFrom_cons (digest : Hash) (position : Nat) (operand : Operand) (rest : Program)
    (stack : Stack) :
    runFrom digest position (operand :: rest) stack =
      match operand.execute digest stack with
      | .ok .pass between => runFrom digest (position + 1) rest between
      | .ok (.fail reason) between => .ok (.rejected position reason) between
      | .error fault between => .error fault between := by
  rw [runFrom]
  rcases ran : operand.execute digest stack with ⟨_ | reason, between⟩ | ⟨fault, between⟩
  · exact Machine.bind_of_ok ran
  · exact Machine.bind_of_ok ran
  · exact Machine.bind_of_error ran

theorem runFrom_cons_of_step {operand : Operand} (step : operand.Step digest stack between)
    (position : Nat) (rest : Program) :
    runFrom digest position (operand :: rest) stack =
      runFrom digest (position + 1) rest between := by
  rw [runFrom_cons, step.execute_eq]

theorem runFrom_cons_of_fail {operand : Operand} {reason : RejectReason}
    (refused : operand.execute digest stack = .ok (.fail reason) between) (position : Nat)
    (rest : Program) :
    runFrom digest position (operand :: rest) stack = .ok (.rejected position reason) between := by
  rw [runFrom_cons, refused]

/-- **A program is accepted when every operand passes.** -/
theorem runFrom_eq_accepted_iff {position : Nat} :
    runFrom digest position program stack = .ok .accepted after ↔
      Runs digest program stack after := by
  induction program generalizing position stack with
  | nil =>
    constructor
    · intro accepted
      cases accepted
      exact .nil _
    · rintro ⟨⟩
      rfl
  | cons operand rest ih =>
    rw [runFrom_cons]
    constructor
    · intro accepted
      rcases ran : operand.execute digest stack with ⟨_ | reason, between⟩ | ⟨fault, between⟩
      · rw [ran] at accepted
        exact .cons (Operand.execute_eq_pass_iff.mp ran) (ih.mp accepted)
      · rw [ran] at accepted
        cases accepted
      · rw [ran] at accepted
        cases accepted
    · rintro (_ | ⟨step, runs⟩)
      rw [step.execute_eq]
      exact ih.mpr runs

/-- **Behind a part that runs, the rest runs on.** -/
theorem runFrom_append_of_runs (runs : Runs digest first stack between) (position : Nat)
    (second : Program) :
    runFrom digest position (first ++ second) stack =
      runFrom digest (position + first.length) second between := by
  induction runs generalizing position with
  | nil stack => rfl
  | cons step _ ih =>
    rw [List.cons_append, runFrom_cons_of_step step, ih, List.length_cons]
    congr 1
    omega

/-! ### Whole programs -/

theorem evaluate_of_ne_nil (nonempty : program ≠ []) :
    evaluate digest program = runFrom digest 0 program := by
  cases program with
  | nil => exact absurd rfl nonempty
  | cons operand rest => rfl

/-- A program is accepted when it asks for something and every operand passes. -/
theorem evaluate_eq_accepted_iff :
    evaluate digest program stack = .ok .accepted after ↔
      program ≠ [] ∧ Runs digest program stack after := by
  cases program with
  | nil =>
    constructor
    · intro accepted
      cases accepted
    · rintro ⟨nonempty, _⟩
      exact absurd rfl nonempty
  | cons operand rest =>
    rw [evaluate_of_ne_nil (List.cons_ne_nil operand rest), runFrom_eq_accepted_iff]
    exact (and_iff_right (List.cons_ne_nil operand rest)).symm

/-- Verification runs the locking program on the stack that the unlocking one leaves. -/
theorem verify_eq_ok_of_runs {unlocking locking : Program} {left : Stack} {verdict : Verdict}
    (runs : Runs digest unlocking [] left) (nonempty : locking ≠ [])
    (ran : runFrom digest unlocking.length locking left = .ok verdict after) :
    verify unlocking locking digest = .ok verdict := by
  refine answer_eq_ok_iff.mpr ⟨after, ?_⟩
  rw [evaluate_of_ne_nil (append_ne_nil unlocking nonempty), runFrom_append_of_runs runs, Nat.zero_add]
  exact ran

/-- Verification accepts when there is something to run, and the two programs run, one behind the
other. -/
theorem verify_eq_accepted_iff_runs {unlocking locking : Program} :
    verify unlocking locking digest = .ok .accepted ↔
      unlocking ++ locking ≠ [] ∧
        ∃ left after, Runs digest unlocking [] left ∧ Runs digest locking left after := by
  rw [verify, answer_eq_ok_iff]
  simp only [evaluate_eq_accepted_iff, runs_append]
  constructor
  · rintro ⟨after, nonempty, left, runs⟩
    exact ⟨nonempty, left, after, runs⟩
  · rintro ⟨nonempty, left, after, runs⟩
    exact ⟨after, nonempty, left, runs⟩

theorem verify_eq_accepted_iff {unlocking locking : Program} (nonempty : locking ≠ []) :
    verify unlocking locking digest = .ok .accepted ↔
      ∃ left after, Runs digest unlocking [] left ∧ Runs digest locking left after :=
  verify_eq_accepted_iff_runs.trans (and_iff_right (append_ne_nil unlocking nonempty))

end Utxo.Program
