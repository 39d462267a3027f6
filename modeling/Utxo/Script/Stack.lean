/-
**The stack that scripts work on.**

* `Stack`: operands, the top first.
* `Machine α`: a computation on a stack that ends with a value or a `ScriptError`.
* `Stack.require`, `Stack.popTwo`, `Stack.duplicateTop`: the moves that can fail. A move that fails
  leaves the stack as it found it.
-/

import Utxo.Script.Fault

namespace Utxo

/-- Operands, the top first. -/
abbrev Stack := List Operand

/-- A computation on a stack. -/
abbrev Machine := EStateM ScriptError Stack

namespace Stack

/-- The operand on top. -/
def top? (stack : Stack) : Option Operand := stack.head?

/-- The operand below the top. -/
def second? (stack : Stack) : Option Operand := stack.tail.head?

/-- The operands, the bottom one first. -/
def fromBottom (stack : Stack) : List Operand := stack.reverse

/-- The names of the operands, the bottom one first. -/
def names (stack : Stack) : List String := stack.fromBottom.map Operand.name

/-- Puts an operand on top. -/
def push (operand : Operand) : Machine Unit := modify (operand :: ·)

/-- Takes the top away; an empty stack stays. -/
def pop : Machine (Option Operand) := modifyGet fun stack => (stack.top?, stack.tail)

/-- Fails on behalf of an opcode that needs more operands than there are. -/
def require (opcode : Opcode) (needed : Nat) : Machine Unit := do
  let available := (← get).length
  if available < needed then throw (.underflow opcode needed available)

/-- Takes the two topmost operands away on behalf of an opcode. -/
def popTwo (opcode : Opcode) : Machine Unit := do
  require opcode 2
  modify (·.drop 2)

/-- Puts a copy of the top, which has to be a public key, on top of it. -/
def duplicateTop : Machine Unit := do
  match ← get with
  | [] => throw (.underflow (.control .duplicate) 1 0)
  | .push .publicKey key :: _ => push (.push .publicKey key)
  | other :: _ =>
    throw (.typeMismatch (.control .duplicate) (.push .publicKey) other.opcode)

end Stack

end Utxo
