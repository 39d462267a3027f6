/-
**The frame of a run.**

What lies at the bottom of the stack is neither looked at nor changed by a program that does not run out
of operands above it.

* `Machine.Framed`: a machine answers the same above any base, and leaves the base as it is.
* `Machine.Framed.bind`: sequences of such machines are such machines.
* `Operand.Step.above`, `Operand.Halts.above`: an operand passes, or halts, above any base as it does
  without one.
* `Program.runFrom_framed`: so does a run, by induction on the operands.
* `Program.evaluate_leavesBase`: the frame of operands and of programs.
-/

import Utxo.Proofs.Script.Halting

namespace Utxo

/-! ### Machines above a base -/

/-- Operands are missing. -/
def ScriptError.IsUnderflow (fault : ScriptError) : Prop :=
  ∃ opcode needed available, fault = .underflow opcode needed available

/-- The operand asks for more than there is. -/
def Halt.IsUnderflow : Halt → Prop
  | .refusal _ => False
  | .failure fault => fault.IsUnderflow

/-- **A machine that keeps to the top of the stack**: it answers the same above any base, and leaves that
base as it is, unless operands are missing. -/
structure Machine.Framed {α : Type} (machine : Machine α) : Prop where
  ok : ∀ {stack left : Stack} {value : α}, machine stack = .ok value left →
    ∀ base, machine (stack ++ base) = .ok value (left ++ base)
  error : ∀ {stack left : Stack} {fault : ScriptError}, machine stack = .error fault left →
    ¬ fault.IsUnderflow → ∀ base, machine (stack ++ base) = .error fault (left ++ base)

namespace Machine.Framed

variable {α β : Type}

protected theorem pure (value : α) : Framed (pure value) where
  ok ran base := by
    cases ran
    rfl
  error ran := by cases ran

protected theorem bind {first : Machine α} {next : α → Machine β} (head : first.Framed)
    (tail : ∀ value, (next value).Framed) : (first >>= next).Framed where
  ok {stack left value} ran base := by
    rcases front : first stack with ⟨middle, between⟩ | ⟨fault, between⟩
    · rw [bind_of_ok front] at ran
      rw [bind_of_ok (head.ok front base)]
      exact (tail middle).ok ran base
    · rw [bind_of_error front] at ran
      cases ran
  error {stack left fault} ran enough base := by
    rcases front : first stack with ⟨middle, between⟩ | ⟨other, between⟩
    · rw [bind_of_ok front] at ran
      rw [bind_of_ok (head.ok front base)]
      exact (tail middle).error ran enough base
    · rw [bind_of_error front] at ran
      cases ran
      exact bind_of_error (head.error front enough base)

end Machine.Framed

section AnyScheme

variable [SignatureScheme] {digest : Hash}

/-! ### Operands -/

namespace Operand

variable {operand : Operand} {stack after : Stack} {halt : Halt}

/-- **What passes, passes above any base.** -/
theorem Step.above (step : operand.Step digest stack after) (base : Stack) :
    operand.Step digest (stack ++ base) (after ++ base) := by
  cases step with
  | push kind data => exact .push kind data (stack ++ base)
  | duplicate key below => exact .duplicate key (below ++ base)
  | hash160 key below => exact .hash160 key (below ++ base)
  | equalVerify first second _ same => exact .equalVerify first second (after ++ base) same
  | checkSig key signature _ verifies => exact .checkSig key signature (after ++ base) verifies

/-- **What halts, halts above any base**, unless it asks for more operands: their number is asked for
first, and nothing below them is looked at. -/
theorem Halts.above (halts : operand.Halts digest stack halt) (enough : ¬ halt.IsUnderflow)
    (base : Stack) : operand.Halts digest (stack ++ base) halt := by
  cases halts with
  | duplicateNothing => exact absurd ⟨_, _, _, rfl⟩ enough
  | duplicateUnkeyed top below noKey => exact .duplicateUnkeyed top (below ++ base) noKey
  | hashNothing => exact absurd ⟨_, _, _, rfl⟩ enough
  | hashUnkeyed top below noKey => exact .hashUnkeyed top (below ++ base) noKey
  | compareShort _ short => exact absurd ⟨_, _, _, rfl⟩ enough
  | compareUnequal first second below differ => exact .compareUnequal first second (below ++ base) differ
  | checkShort _ short => exact absurd ⟨_, _, _, rfl⟩ enough
  | checkUnkeyed top second below noKey => exact .checkUnkeyed top second (below ++ base) noKey
  | checkUnsigned key second below unsigned => exact .checkUnsigned key second (below ++ base) unsigned
  | checkMalformed key signature below fault malformed =>
    exact .checkMalformed key signature (below ++ base) fault malformed
  | checkInvalid key signature below invalid =>
    exact .checkInvalid key signature (below ++ base) invalid

theorem execute_framed (digest : Hash) (operand : Operand) : (operand.execute digest).Framed where
  ok {stack left outcome} ran base := by
    rcases operand.step_or_halts digest stack with ⟨after, step⟩ | ⟨halt, halts⟩
    · rw [step.execute_eq] at ran
      cases ran
      exact (step.above base).execute_eq
    · rw [halts.execute_eq] at ran
      cases halt with
      | refusal reason =>
        cases ran
        exact (halts.above not_false base).execute_eq
      | failure fault => cases ran
  error {stack left fault} ran enough base := by
    have ended : operand.execute digest stack = (Halt.failure fault).outcome left := ran
    obtain ⟨halts, rfl⟩ := execute_eq_outcome_iff.mp ended
    exact (halts.above enough base).execute_eq

end Operand

/-! ### Programs -/

namespace Program

/-- **A run keeps to the top of the stack**: each of its operands does, and the position does not depend
on the stack. -/
theorem runFrom_framed (digest : Hash) (position : Nat) (program : Program) :
    (runFrom digest position program).Framed := by
  induction program generalizing position with
  | nil => exact .pure _
  | cons operand rest ih =>
    unfold runFrom
    refine (operand.execute_framed digest).bind fun outcome => ?_
    cases outcome with
    | pass => exact ih (position + 1)
    | fail reason => exact .pure _

theorem evaluate_framed (digest : Hash) (program : Program) : (evaluate digest program).Framed := by
  by_cases empty : program = []
  · subst empty
    exact .pure _
  · rw [evaluate_of_ne_nil empty]
    exact runFrom_framed digest 0 program

/-- **Nothing below is read or changed.** An operand keeps to the top of the stack. A program that has a
verdict on a stack has the same above any base, with the position and the reason, and one that fails for
anything but missing operands fails in the same way; what it leaves is what it leaves without the base,
and below it the base. -/
theorem evaluate_leavesBase (digest : Hash) :
    (∀ operand : Operand, (operand.execute digest).Framed) ∧
    ∀ (program : Program) (stack base : Stack),
      (∀ verdict left, evaluate digest program stack = .ok verdict left →
        evaluate digest program (stack ++ base) = .ok verdict (left ++ base)) ∧
      ∀ fault left, evaluate digest program stack = .error fault left → ¬ fault.IsUnderflow →
        evaluate digest program (stack ++ base) = .error fault (left ++ base) := by
  refine ⟨fun operand => operand.execute_framed digest, fun program stack base => ⟨?_, ?_⟩⟩
  · exact fun verdict left ran => (evaluate_framed digest program).ok ran base
  · exact fun fault left ran enough => (evaluate_framed digest program).error ran enough base

end Program

end AnyScheme

namespace Program

/-- Missing operands are the exception: a base may hold them. -/
example :
    evaluate (FixedBytes.zero 32) [.control .duplicate] [] =
        .error (.underflow (.control .duplicate) 1 0) [] ∧
      evaluate (FixedBytes.zero 32) [.control .duplicate] ([] ++ [.push .publicKey [2]]) =
        .ok .accepted [.push .publicKey [2], .push .publicKey [2]] :=
  ⟨rfl, rfl⟩

/-- Asks for a signature below a key's copy, where the key is. -/
def copyChecked : Program := [.push .publicKey [2], .control .duplicate, .control .checkSig]

/-- A program that is refused, one that fails, and one that is accepted, above a base: the signature there
is not the one that the second looks for, and the key there is not compared by the third. -/
theorem evaluate_leavesBase_overTwo :
    evaluate (FixedBytes.zero 32) hashedTwice
        ([.push .signature [7]] ++ [.push .signature [9], .push .publicKey [2]]) =
      .ok (.rejected 2 .notAPublicKey)
        ([.push .publicKeyHash (hash160 [2]).toBytes, .push .signature [7]] ++
          [.push .signature [9], .push .publicKey [2]]) ∧
    evaluate (FixedBytes.zero 32) copyChecked
        ([] ++ [.push .signature [9], .push .publicKey [2]]) =
      .error (.typeMismatch (.control .checkSig) (.push .signature) (.push .publicKey))
        ([.push .publicKey [2], .push .publicKey [2]] ++
          [.push .signature [9], .push .publicKey [2]]) ∧
    evaluate (FixedBytes.zero 32) (comparedAway.take 3)
        ([] ++ [.push .signature [9], .push .publicKey [2]]) =
      .ok .accepted ([] ++ [.push .signature [9], .push .publicKey [2]]) := by
  have above := (evaluate_leavesBase (FixedBytes.zero 32)).2
  refine ⟨?_, ?_, ?_⟩
  · exact (above hashedTwice _ _).1 _ _ rfl
  · refine (above copyChecked [] _).2 _ _ rfl ?_
    rintro ⟨_, _, _, ⟨⟩⟩
  · exact (above (comparedAway.take 3) [] _).1 _ _ rfl

end Program

end Utxo
