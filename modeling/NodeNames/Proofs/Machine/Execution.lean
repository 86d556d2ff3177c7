import NodeNames.Proofs.Code.Decoding
import NodeNames.Proofs.MethodSignature
/-!
# Execution

An abstract machine runs code on a stack of values. It is up to the machine
what the values are, what the local slots hold, which arguments a method
accepts and what its result is. Code is stuck when an instruction does not mean
anything in the pool, when a local slot cannot be loaded in the way that is asked
for, and when the stack does not have the arguments of a method.
-/

namespace NodeNames

/-- What a machine makes of local slots, constants and methods. -/
structure Machine (Value : Type) where
  loadReference : UInt16 → Option Value
  loadInteger : UInt16 → Option Value
  loadReal : UInt16 → Option Value
  integer : Int → Value
  text : String → Value
  classObject : String → Value
  /-- Whether a method of some signature accepts a receiver, if it has one, and arguments. -/
  accepts : MethodReference → MethodSignature → List Value → Bool
  /-- The result of a method, which has a given type, for a receiver and arguments. -/
  result : MethodReference → FieldType → List Value → Value

/-- The signature of a method that has to be of a given kind. -/
def MethodReference.signature? (reference : MethodReference) (kind : MethodKind) :
    Option MethodSignature :=
  if reference.kind = kind then MethodSignature.read reference.descriptor.toList else none

namespace Machine

variable {Value : Type}

/-- Invokes a method on the topmost values, of which the last argument comes first. -/
def invoke (machine : Machine Value) (reference : MethodReference) (signature : MethodSignature)
    (arity : Nat) (stack : List Value) : Option (List Value) :=
  let arguments := (stack.take arity).reverse
  if arity ≤ stack.length ∧ machine.accepts reference signature arguments = true then
    some ((signature.result.map fun type => machine.result reference type arguments).toList ++
      stack.drop arity)
  else none

end Machine

namespace DecodedInstruction

variable {Value : Type}

/-- Executes an instruction; the first value of a stack is its topmost. -/
def execute (machine : Machine Value) (stack : List Value) :
    DecodedInstruction → Option (List Value)
  | loadReference slot => (machine.loadReference slot).map (· :: stack)
  | loadInteger slot => (machine.loadInteger slot).map (· :: stack)
  | loadReal slot => (machine.loadReal slot).map (· :: stack)
  | pushInteger value => some (machine.integer value :: stack)
  | pushText text => some (machine.text text :: stack)
  | pushClass name => some (machine.classObject name :: stack)
  | invokeStatic reference =>
      (reference.signature? .ofClass).bind fun signature =>
        machine.invoke reference signature signature.parameters.length stack
  | invokeInterface reference count =>
      (reference.signature? .ofInterface).bind fun signature =>
        if count.toNat = 1 + signature.argumentSlots then
          machine.invoke reference signature (1 + signature.parameters.length) stack
        else none

@[simp] theorem execute_loadReference (machine : Machine Value) (stack : List Value)
    (slot : UInt16) :
    (loadReference slot).execute machine stack =
      (machine.loadReference slot).map (· :: stack) := rfl

@[simp] theorem execute_loadInteger (machine : Machine Value) (stack : List Value)
    (slot : UInt16) :
    (loadInteger slot).execute machine stack = (machine.loadInteger slot).map (· :: stack) := rfl

@[simp] theorem execute_pushInteger (machine : Machine Value) (stack : List Value) (value : Int) :
    (pushInteger value).execute machine stack = some (machine.integer value :: stack) := rfl

def executeAll (machine : Machine Value) :
    List DecodedInstruction → List Value → Option (List Value)
  | [], stack => some stack
  | instruction :: others, stack =>
      (instruction.execute machine stack).bind (executeAll machine others)

@[simp] theorem executeAll_nil (machine : Machine Value) : executeAll machine [] = some := by
  funext stack
  rfl

@[simp] theorem executeAll_cons (machine : Machine Value) (instruction : DecodedInstruction)
    (others : List DecodedInstruction) (stack : List Value) :
    executeAll machine (instruction :: others) stack =
      (instruction.execute machine stack).bind (executeAll machine others) := rfl

@[simp] theorem executeAll_append (machine : Machine Value) (first second : List DecodedInstruction)
    (stack : List Value) :
    executeAll machine (first ++ second) stack =
      (executeAll machine first stack).bind (executeAll machine second) := by
  induction first generalizing stack with
  | nil => rfl
  | cons instruction others ih =>
      rw [List.cons_append, executeAll_cons, executeAll_cons, Option.bind_assoc]
      cases instruction.execute machine stack with
      | none => rfl
      | some next => exact ih next

end DecodedInstruction

/-- Runs code, whose instructions mean what they mean in a pool. -/
def Code.run {Value : Type} (machine : Machine Value) (pool : ConstantPool) :
    Code → List Value → Option (List Value)
  | [], stack => some stack
  | instruction :: others, stack =>
      (instruction.decode? pool).bind fun decoded =>
        (decoded.execute machine stack).bind (Code.run machine pool others)

theorem Code.decode?_cons {pool : ConstantPool} {instruction : Instruction} {others : Code}
    {plan : List DecodedInstruction}
    (decodes : Code.decode? pool (instruction :: others) = some plan) :
    ∃ decoded rest, instruction.decode? pool = some decoded ∧
      Code.decode? pool others = some rest ∧ plan = decoded :: rest := by
  rw [decode?, List.mapM_cons] at decodes
  simp only [Option.bind_eq_bind, Option.bind_eq_some_iff, Option.pure_def,
    Option.some.injEq] at decodes
  rcases decodes with ⟨decoded, first, rest, others, rfl⟩
  exact ⟨decoded, rest, first, others, rfl⟩

theorem Code.run_of_decode? {Value : Type} {pool : ConstantPool} {code : Code}
    {plan : List DecodedInstruction} (decodes : code.decode? pool = some plan)
    (machine : Machine Value) (stack : List Value) :
    code.run machine pool stack = DecodedInstruction.executeAll machine plan stack := by
  induction code generalizing plan stack with
  | nil =>
      cases decodes
      rfl
  | cons instruction others ih =>
      rcases decode?_cons decodes with ⟨decoded, rest, first, last, rfl⟩
      rw [run, first, Option.bind_some, DecodedInstruction.executeAll_cons]
      congr 1
      funext next
      exact ih last next

end NodeNames
