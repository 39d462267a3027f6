/-
**Running programs.**

Each operand passes, says no, or is an error; a run ends at the first that does not pass. The two
endings differ: a script that says no is well formed.

* `Operand.execute`: one operand, over the digest that signatures have to be made of.
* `Program.evaluate`: a program on the stack that it finds.
* `Program.verify`: an unlocking program followed by a locking one, from the empty stack.
* `Verdict`: the answer; `Verdict.toResult` turns a rejection into an error.
-/

import Utxo.Script.Program
import Utxo.Script.Stack
import Utxo.Signature.Scheme

namespace Utxo

/-- What an operand answers that is no error. -/
inductive Outcome
  | pass
  | fail (reason : RejectReason)
deriving DecidableEq, Repr

/-- What a program answers; a rejection names the operand that it came from. -/
inductive Verdict
  | accepted
  | rejected (position : Nat) (reason : RejectReason)
deriving DecidableEq, Repr

namespace Verdict

/-- Whether the program said yes. -/
def isAccepted : Verdict → Bool
  | .accepted => true
  | .rejected _ _ => false

/-- A rejection as an error; signatures that do not verify have one of their own. -/
def toResult : Verdict → Except Error Unit
  | .accepted => .ok ()
  | .rejected _ .signatureInvalid => .error .signatureInvalid
  | .rejected position reason => .error (.rejected position reason)

end Verdict

variable [SignatureScheme]

namespace Control

/-- The digest of a public key takes the key's place. -/
def hashTop : Machine Outcome := do
  Stack.require (.control .hash160) 1
  match ← get with
  | .push .publicKey key :: rest =>
    set (Operand.push .publicKeyHash (Utxo.hash160 key).toBytes :: rest)
    return .pass
  | _ => return .fail .notAPublicKey

/-- Two operands with the same data are taken away, whatever they are meant to be. -/
def compareTop : Machine Outcome := do
  Stack.require (.control .equalVerify) 2
  match ← get with
  | first :: second :: _ =>
    if first.data = second.data then
      Stack.popTwo (.control .equalVerify)
      return .pass
    else return .fail .notEqual
  | _ => return .fail .notEqual

/-- A public key above a signature of the digest by it are taken away. -/
def checkTop (digest : Hash) : Machine Outcome := do
  Stack.require (.control .checkSig) 2
  match ← get with
  | .push .publicKey key :: .push .signature signature :: _ =>
    match SignatureScheme.verify key signature digest with
    | .ok true =>
      Stack.popTwo (.control .checkSig)
      return .pass
    | .ok false => return .fail .signatureInvalid
    | .error fault => throw (.signature fault)
  | .push .publicKey _ :: other :: _ =>
    throw (.typeMismatch (.control .checkSig) (.push .signature) other.opcode)
  | other :: _ => throw (.typeMismatch (.control .checkSig) (.push .publicKey) other.opcode)
  | [] => throw (.underflow (.control .checkSig) 2 0)

/-- Carries out an instruction. -/
def execute (digest : Hash) : Control → Machine Outcome
  | .duplicate => do
    Stack.duplicateTop
    return .pass
  | .hash160 => hashTop
  | .equalVerify => compareTop
  | .checkSig => checkTop digest

end Control

/-- Runs one operand: a push puts itself on the stack. -/
def Operand.execute (digest : Hash) : Operand → Machine Outcome
  | .push kind data => do
    Stack.push (.push kind data)
    return .pass
  | .control instruction => instruction.execute digest

namespace Program

/-- Runs the operands of which the first stands at `position`. -/
def runFrom (digest : Hash) (position : Nat) : Program → Machine Verdict
  | [] => return .accepted
  | operand :: rest => do
    match ← operand.execute digest with
    | .pass => runFrom digest (position + 1) rest
    | .fail reason => return .rejected position reason

/-- Runs a program; an empty one says no. -/
def evaluate (digest : Hash) (program : Program) : Machine Verdict :=
  match program with
  | [] => return .rejected 0 .emptyProgram
  | _ => runFrom digest 0 program

/-- The answer of a machine that starts on the empty stack. -/
def answer (machine : Machine Verdict) : Except Error Verdict :=
  match machine.run [] with
  | .ok verdict _ => .ok verdict
  | .error fault _ => .error (.script fault)

/-- Runs an unlocking program and then a locking one, from the empty stack. -/
def verify (unlocking locking : Program) (digest : Hash) : Except Error Verdict :=
  answer (evaluate digest (unlocking ++ locking))

end Program

end Utxo
