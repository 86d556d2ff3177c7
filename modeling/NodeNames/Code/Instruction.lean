import NodeNames.Pool.Basic
import NodeNames.Text.Quoted
/-!
# Instructions

The machine instructions that emitted code is made of, their effect on the
operand stack and their written forms.
-/

namespace NodeNames

/-- A machine instruction. -/
inductive Instruction where
  /-- Loads a reference from a local slot. -/
  | aload (slot : UInt16)
  /-- Loads an integer from a local slot. -/
  | iload (slot : UInt16)
  /-- Loads a real number from two local slots. -/
  | dload (slot : UInt16)
  /-- Pushes one of the integers from minus one to five. -/
  | iconst (value : Int8)
  /-- Pushes an integer of one byte. -/
  | bipush (value : Int8)
  /-- Pushes an integer of two bytes. -/
  | sipush (value : Int16)
  /-- Pushes a constant whose index fits in one byte. -/
  | ldc (index : PoolIndex)
  /-- Pushes a constant. -/
  | ldcWide (index : PoolIndex)
  /-- Calls a method of a class. -/
  | invokeStatic (index : PoolIndex)
  /-- Calls a method of an interface; the count covers the receiver and the arguments. -/
  | invokeInterface (index : PoolIndex) (count : UInt8)
deriving DecidableEq

/-- The slots that an instruction takes from the stack and puts back. -/
structure StackEffect where
  consumed : Nat
  produced : Nat
deriving DecidableEq

def StackEffect.delta (effect : StackEffect) : Int :=
  effect.produced - effect.consumed

/-- The signature of a method that has to be of a given kind. -/
def ConstantPool.signature (pool : ConstantPool) (index : PoolIndex) (kind : MethodKind) :
    Except CompileError MethodSignature := do
  let reference ← pool.methodReference index
  if reference.kind = kind then MethodSignature.ofDescriptor reference.descriptor
  else throw (.wrongMethodKind index reference kind)

namespace Instruction

/-- Pushes a pool constant, in the short form if the index allows it. -/
def load (index : PoolIndex) : Instruction :=
  if index ≤ 255 then ldc index else ldcWide index

/-- Pushes an integer in the shortest form that can carry it. -/
def push (value : Int) : PoolAction Instruction :=
  if -1 ≤ value ∧ value ≤ 5 then return iconst (.ofInt value)
  else if -128 ≤ value ∧ value ≤ 127 then return bipush (.ofInt value)
  else if -32768 ≤ value ∧ value ≤ 32767 then return sipush (.ofInt value)
  else return load (← ConstantPool.addInteger value)

/-- The effect on the stack; that of an invocation is read from the descriptor of its method. -/
def stackEffect (instruction : Instruction) (pool : ConstantPool) :
    Except CompileError StackEffect :=
  match instruction with
  | aload _ | iload _ | iconst _ | bipush _ | sipush _ | ldc _ | ldcWide _ =>
      return { consumed := 0, produced := 1 }
  | dload _ => return { consumed := 0, produced := 2 }
  | invokeStatic index => do
      let signature ← pool.signature index .ofClass
      return { consumed := signature.argumentSlots, produced := signature.resultSlots }
  | invokeInterface index count => do
      let signature ← pool.signature index .ofInterface
      return { consumed := count.toNat, produced := signature.resultSlots }

/-- The written form of an instruction, with pool indices. -/
def render : Instruction → String
  | aload slot => s!"aload {slot.toNat}"
  | iload slot => s!"iload {slot.toNat}"
  | dload slot => s!"dload {slot.toNat}"
  | iconst value => if value = -1 then "iconst_m1" else s!"iconst_{value.toInt}"
  | bipush value => s!"bipush {value.toInt}"
  | sipush value => s!"sipush {value.toInt}"
  | ldc index => s!"ldc {index.render}"
  | ldcWide index => s!"ldc_w {index.render}"
  | invokeStatic index => s!"invokestatic {index.render}"
  | invokeInterface index count => s!"invokeinterface {index.render} {count.toNat}"

/-- The written form of the constant that a load pushes, if it can be pushed. -/
def renderConstant? (pool : ConstantPool) (index : PoolIndex) : Option String :=
  match pool.get? index with
  | some (.integer value) => some (toString value)
  | some (.string text) => some (Text.quote ((pool.text? text).getD ""))
  | _ => none

/-- The written form of an instruction, with what its pool index stands for. -/
def renderResolved (instruction : Instruction) (pool : ConstantPool) : String :=
  let resolved :=
    match instruction with
    | ldc index => (renderConstant? pool index).map fun constant => s!"ldc {constant}"
    | ldcWide index => (renderConstant? pool index).map fun constant => s!"ldc_w {constant}"
    | invokeStatic index =>
        (pool.methodReference? index).map fun (reference : MethodReference) =>
          s!"invokestatic {reference.render}"
    | invokeInterface index count =>
        (pool.methodReference? index).map fun (reference : MethodReference) =>
          s!"invokeinterface {reference.render} {count.toNat}"
    | _ => none
  resolved.getD instruction.render

end Instruction

end NodeNames
