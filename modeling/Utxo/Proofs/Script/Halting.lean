/-
**Where runs of programs end.**

* `Program.HaltsAt`: the operands before a position pass, and the operand there halts on the stack that
  they leave.
* `Program.runs_or_haltsAt`: a program runs through or halts somewhere, by induction on its operands.
* `Program.evaluate_eq_rejected_iff`, `Program.evaluate_eq_error_iff`: what a program answers that does
  not run through, with the stack that it leaves.
* `RejectReason.source?`: the instruction that a reason comes from.
* `Program.evaluate_allOrNothing`: the steps and the ends of runs together.
-/

import Utxo.Signature.Ecdsa
import Utxo.Proofs.Script.Run

namespace Utxo

/-! ### Reasons and the instructions that they come from -/

/-- The instruction that says no for a reason; nothing in an empty program does. -/
def RejectReason.source? : RejectReason → Option Control
  | .emptyProgram => none
  | .notAPublicKey => some .hash160
  | .notEqual => some .equalVerify
  | .signatureInvalid => some .checkSig

/-- What the program answers whose operand at `position` halts on `stack`. -/
def Halt.verdict (position : Nat) (stack : Stack) : Halt → EStateM.Result ScriptError Stack Verdict
  | .refusal reason => .ok (.rejected position reason) stack
  | .failure fault => .error fault stack

/-- An operand that says no is the instruction that its reason comes from. -/
theorem Operand.Halts.source_of_refusal [SignatureScheme] {digest : Hash} {operand : Operand} {stack : Stack}
    {reason : RejectReason} (refuses : operand.Halts digest stack (.refusal reason)) :
    ∃ instruction, reason.source? = some instruction ∧ operand = .control instruction := by
  cases refuses with
  | hashUnkeyed => exact ⟨.hash160, rfl, rfl⟩
  | compareUnequal => exact ⟨.equalVerify, rfl, rfl⟩
  | checkInvalid => exact ⟨.checkSig, rfl, rfl⟩

namespace Program

section AnyScheme

variable [SignatureScheme]

/-- **A run ends at an operand that does not pass**: those before it pass, and it halts on the stack
that they leave. -/
structure HaltsAt (digest : Hash) (program : Program) (stack : Stack) (position : Nat) (halt : Halt)
    (left : Stack) : Prop where
  passed : Runs digest (program.take position) stack left
  halted : ∃ operand, program[position]? = some operand ∧ operand.Halts digest left halt

variable {digest : Hash} {program rest : Program} {operand : Operand} {stack between left : Stack}
  {position : Nat} {halt : Halt}

/-! ### Every program runs through or halts -/

theorem HaltsAt.lt_length (ends : HaltsAt digest program stack position halt left) :
    position < program.length := by
  obtain ⟨operand, found, -⟩ := ends.halted
  exact (List.getElem?_eq_some_iff.mp found).1

theorem haltsAt_head (halts : operand.Halts digest stack halt) (rest : Program) :
    HaltsAt digest (operand :: rest) stack 0 halt stack where
  passed := .nil stack
  halted := ⟨operand, rfl, halts⟩

theorem HaltsAt.cons (step : operand.Step digest stack between)
    (ends : HaltsAt digest rest between position halt left) :
    HaltsAt digest (operand :: rest) stack (position + 1) halt left where
  passed := .cons step ends.passed
  halted := ends.halted

/-- **A program runs through, or halts at one of its operands.** -/
theorem runs_or_haltsAt (digest : Hash) (program : Program) (stack : Stack) :
    (∃ after, Runs digest program stack after) ∨
      ∃ position halt left, HaltsAt digest program stack position halt left := by
  induction program generalizing stack with
  | nil => exact Or.inl ⟨stack, .nil stack⟩
  | cons operand rest ih =>
    rcases operand.step_or_halts digest stack with ⟨between, step⟩ | ⟨halt, halts⟩
    · rcases ih between with ⟨after, runs⟩ | ⟨position, halt, left, ends⟩
      · exact Or.inl ⟨after, .cons step runs⟩
      · exact Or.inr ⟨position + 1, halt, left, .cons step ends⟩
    · exact Or.inr ⟨0, halt, stack, haltsAt_head halts rest⟩

/-! ### What is answered -/

theorem runFrom_cons_of_halts (halts : operand.Halts digest stack halt) (position : Nat)
    (rest : Program) :
    runFrom digest position (operand :: rest) stack = halt.verdict position stack := by
  rw [runFrom_cons, halts.execute_eq]
  cases halt <;> rfl

/-- The operand that halts decides, whatever stands behind it. -/
theorem HaltsAt.runFrom_eq (ends : HaltsAt digest program stack position halt left) (start : Nat) :
    runFrom digest start program stack = halt.verdict (start + position) left := by
  obtain ⟨operand, found, halts⟩ := ends.halted
  have length := List.length_take_of_le (Nat.le_of_lt ends.lt_length)
  rw [eq_take_append_drop found, runFrom_append_of_runs ends.passed, length]
  exact runFrom_cons_of_halts halts _ _

theorem HaltsAt.evaluate_eq (ends : HaltsAt digest program stack position halt left) :
    evaluate digest program stack = halt.verdict position left := by
  have nonempty : program ≠ [] := List.ne_nil_of_length_pos (Nat.zero_lt_of_lt ends.lt_length)
  rw [evaluate_of_ne_nil nonempty, ends.runFrom_eq, Nat.zero_add]

/-- A program that asks for something and is not accepted halts at one of its operands. -/
theorem exists_haltsAt (nonempty : program ≠ [])
    (refused : ∀ after, evaluate digest program stack ≠ .ok .accepted after) :
    ∃ position halt left, HaltsAt digest program stack position halt left := by
  refine (runs_or_haltsAt digest program stack).resolve_left ?_
  rintro ⟨after, runs⟩
  exact refused after (evaluate_eq_accepted_iff.mpr ⟨nonempty, runs⟩)

/-- **A program says no just where an operand does.** -/
theorem evaluate_eq_rejected_iff {reason : RejectReason} (nonempty : program ≠ []) :
    evaluate digest program stack = .ok (.rejected position reason) left ↔
      HaltsAt digest program stack position (.refusal reason) left := by
  refine ⟨fun rejected => ?_, HaltsAt.evaluate_eq⟩
  have refused : ∀ after, evaluate digest program stack ≠ .ok .accepted after := by
    simp [rejected]
  obtain ⟨place, halt, other, ends⟩ := exists_haltsAt nonempty refused
  rw [ends.evaluate_eq] at rejected
  cases halt <;> cases rejected
  exact ends

/-- **A program has no answer just when an operand has none.** -/
theorem evaluate_eq_error_iff {fault : ScriptError} :
    evaluate digest program stack = .error fault left ↔
      ∃ position, HaltsAt digest program stack position (.failure fault) left := by
  constructor
  · intro failed
    -- The empty program says no by itself, so this one has an operand that halts.
    have nonempty : program ≠ [] := by
      rintro rfl
      cases failed
    have refused : ∀ after, evaluate digest program stack ≠ .ok .accepted after := by
      simp [failed]
    obtain ⟨place, halt, other, ends⟩ := exists_haltsAt nonempty refused
    rw [ends.evaluate_eq] at failed
    cases halt <;> cases failed
    exact ⟨place, ends⟩
  · rintro ⟨position, ends⟩
    exact ends.evaluate_eq

/-! ### Steps and runs together -/

/-- **Every step is all or nothing, and a run that halts leaves the stack in front of the operand that
halts.** An operand passes just in the five ways of `Step`; else it says no or fails, on the stack that it
found. A program that says no does so at one of its operands, which is the instruction that the reason
comes from, and one that fails does so at one of its operands; those before it passed, and the stack is
the one that they leave. -/
theorem evaluate_allOrNothing (digest : Hash) :
    (∀ (operand : Operand) (stack : Stack),
      (∀ after, operand.execute digest stack = .ok .pass after ↔
        operand.Step digest stack after) ∧
      ((∃ after, operand.Step digest stack after) ∨
        (∃ reason, operand.execute digest stack = .ok (.fail reason) stack) ∨
        ∃ fault, operand.execute digest stack = .error fault stack)) ∧
    ∀ (program : Program) (stack : Stack), program ≠ [] →
      (∀ position reason left,
        evaluate digest program stack = .ok (.rejected position reason) left →
          position < program.length ∧ Runs digest (program.take position) stack left ∧
          ∃ instruction, reason.source? = some instruction ∧
            program[position]? = some (.control instruction) ∧
            (Operand.control instruction).execute digest left = .ok (.fail reason) left) ∧
      ∀ fault left, evaluate digest program stack = .error fault left →
        ∃ position < program.length, Runs digest (program.take position) stack left ∧
          ∃ operand, program[position]? = some operand ∧
            operand.execute digest left = .error fault left := by
  refine ⟨fun operand stack => ⟨fun after => operand.execute_eq_pass_iff, ?_⟩,
    fun program stack nonempty => ⟨fun position reason left rejected => ?_,
      fun fault left failed => ?_⟩⟩
  · refine (operand.step_or_halts digest stack).imp_right ?_
    rintro ⟨reason | fault, halts⟩
    · exact Or.inl ⟨reason, halts.execute_eq⟩
    · exact Or.inr ⟨fault, halts.execute_eq⟩
  · have ends := (evaluate_eq_rejected_iff nonempty).mp rejected
    obtain ⟨operand, found, halts⟩ := ends.halted
    obtain ⟨instruction, source, rfl⟩ := halts.source_of_refusal
    exact ⟨ends.lt_length, ends.passed, instruction, source, found, halts.execute_eq⟩
  · obtain ⟨position, ends⟩ := evaluate_eq_error_iff.mp failed
    obtain ⟨operand, found, halts⟩ := ends.halted
    exact ⟨position, ends.lt_length, ends.passed, operand, found, halts.execute_eq⟩

end AnyScheme

/-- A key whose digest is not a key again. -/
def hashedTwice : Program :=
  [.push .publicKey [2], .control .hash160, .control .hash160, .control .checkSig]

/-- A key and its copy, which are taken away before a signature is asked for. -/
def comparedAway : Program :=
  [.push .publicKey [2], .control .duplicate, .control .equalVerify, .control .checkSig]

/-- Over a signature, the one is refused at its third operand and the other fails at its fourth: both
leave the signature where it was. -/
theorem evaluate_allOrNothing_overSignature :
    (evaluate (FixedBytes.zero 32) hashedTwice [.push .signature [7]] =
        .ok (.rejected 2 .notAPublicKey)
          [.push .publicKeyHash (hash160 [2]).toBytes, .push .signature [7]] ∧
      Runs (FixedBytes.zero 32) (hashedTwice.take 2) [.push .signature [7]]
        [.push .publicKeyHash (hash160 [2]).toBytes, .push .signature [7]]) ∧
    evaluate (FixedBytes.zero 32) comparedAway [.push .signature [7]] =
        .error (.underflow (.control .checkSig) 2 1) [.push .signature [7]] ∧
      ∃ position < comparedAway.length, Runs (FixedBytes.zero 32) (comparedAway.take position)
        [.push .signature [7]] [.push .signature [7]] := by
  have ends := (evaluate_allOrNothing (FixedBytes.zero 32)).2
  have rejected : evaluate (FixedBytes.zero 32) hashedTwice [.push .signature [7]] =
      .ok (.rejected 2 .notAPublicKey)
        [.push .publicKeyHash (hash160 [2]).toBytes, .push .signature [7]] := rfl
  have failed : evaluate (FixedBytes.zero 32) comparedAway [.push .signature [7]] =
      .error (.underflow (.control .checkSig) 2 1) [.push .signature [7]] := rfl
  obtain ⟨-, passed, -⟩ := (ends hashedTwice _ (List.cons_ne_nil _ _)).1 2 _ _ rejected
  obtain ⟨position, inside, runs, -⟩ := (ends comparedAway _ (List.cons_ne_nil _ _)).2 _ _ failed
  exact ⟨⟨rejected, passed⟩, failed, position, inside, runs⟩

end Program

end Utxo
