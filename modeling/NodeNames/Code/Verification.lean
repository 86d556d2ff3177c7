import NodeNames.Code.Listing
/-!
# Verification

Simulates the depth of the operand stack from an empty start. Code is refused
when an instruction takes more than there is, when an invocation does not name
a method of its kind, and when the count of an interface invocation differs
from what the descriptor of its method needs.
-/

namespace NodeNames

/-- The depth of the stack at the end of some code, and the greatest depth on the way. -/
structure StackSummary where
  maxStack : Nat
  finalDepth : Nat
deriving DecidableEq

namespace Code

/-- The count of an interface invocation has to cover the receiver and the arguments. -/
def checkCount (pool : ConstantPool) (position : Nat) :
    Instruction → Except CompileError Unit
  | .invokeInterface index count => do
      let reference ← pool.methodReference index
      let signature ← MethodSignature.ofDescriptor reference.descriptor
      let needed := 1 + signature.argumentSlots
      if count.toNat = needed then return ()
      else throw (.countMismatch position reference count.toNat needed)
  | _ => return ()

def verifyInstruction (pool : ConstantPool) (position : Nat) (instruction : Instruction)
    (summary : StackSummary) : Except CompileError StackSummary := do
  checkCount pool position instruction
  let effect ← instruction.stackEffect pool
  if effect.consumed ≤ summary.finalDepth then
    let depth := summary.finalDepth - effect.consumed + effect.produced
    return { maxStack := max summary.maxStack depth, finalDepth := depth }
  else
    throw (.stackUnderflow position (instruction.renderResolved pool) effect.consumed
      summary.finalDepth)

/-- Simulates code that starts at a given position and depth. -/
def verifyFrom (pool : ConstantPool) (position : Nat) (summary : StackSummary) :
    Code → Except CompileError StackSummary
  | [] => return summary
  | instruction :: rest => do
      let next ← verifyInstruction pool position instruction summary
      verifyFrom pool (position + 1) next rest

def verify (code : Code) (pool : ConstantPool) : Except CompileError StackSummary :=
  verifyFrom pool 0 { maxStack := 0, finalDepth := 0 } code

/-- The change of the stack's depth over the code, whatever the depth at its start. -/
def stackDelta (pool : ConstantPool) : Code → Except CompileError Int
  | [] => return 0
  | instruction :: rest => do
      let effect ← instruction.stackEffect pool
      let delta ← stackDelta pool rest
      return effect.delta + delta

end Code

end NodeNames
