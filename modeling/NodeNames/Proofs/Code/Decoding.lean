import NodeNames.Code.Verification
import NodeNames.Proofs.Pool.Representation
/-!
# Decoded code

A decoded instruction says what the instruction means whatever pool it comes
from: it has the pushed constant or the invoked method where the instruction
has an index. Assembling an instruction is the way back, which adds the
constant to the pool if it is not there yet.
-/

namespace NodeNames

open ConstantValue

/-- An instruction with what its pool index stands for in place of the index. -/
inductive DecodedInstruction where
  | loadReference (slot : UInt16)
  | loadInteger (slot : UInt16)
  | loadReal (slot : UInt16)
  | pushInteger (value : Int)
  | pushText (text : String)
  | pushClass (name : String)
  | invokeStatic (reference : MethodReference)
  | invokeInterface (reference : MethodReference) (count : UInt8)
deriving DecidableEq

/-- The push of the constant with an index, if it is one that can be pushed. -/
def ConstantPool.pushOf? (pool : ConstantPool) (index : PoolIndex) : Option DecodedInstruction :=
  match pool.valueAt? index with
  | some (.integer value) => some (.pushInteger value)
  | some (.string text) => some (.pushText text)
  | some (.classEntry name) => some (.pushClass name)
  | _ => none

/-- The meaning of an instruction, if its index stands for what the instruction needs. -/
def Instruction.decode? (pool : ConstantPool) : Instruction → Option DecodedInstruction
  | aload slot => some (.loadReference slot)
  | iload slot => some (.loadInteger slot)
  | dload slot => some (.loadReal slot)
  | iconst value => some (.pushInteger value.toInt)
  | bipush value => some (.pushInteger value.toInt)
  | sipush value => some (.pushInteger value.toInt)
  | ldc index | ldcWide index => pool.pushOf? index
  | invokeStatic index => (pool.methodReference? index).map .invokeStatic
  | invokeInterface index count =>
      (pool.methodReference? index).map fun reference => .invokeInterface reference count

def Code.decode? (pool : ConstantPool) (code : Code) : Option (List DecodedInstruction) :=
  code.mapM (Instruction.decode? pool)

namespace DecodedInstruction

/-- The constant that the instruction has in the pool; short integers need none. -/
def constant? : DecodedInstruction → Option ConstantValue
  | loadReference _ | loadInteger _ | loadReal _ => none
  | pushInteger value =>
      if -32768 ≤ value ∧ value ≤ 32767 then none else some (.integer value)
  | pushText text => some (.string text)
  | pushClass name => some (.classEntry name)
  | invokeStatic reference | invokeInterface reference _ => some (.method reference)

/-- The constants that assembling an instruction asks the pool for. -/
def wanted (instruction : DecodedInstruction) : List ConstantValue :=
  match instruction.constant? with
  | some value => value.constituents
  | none => []

/-- Why an instruction cannot be assembled whatever is in the pool. -/
def fault? (instruction : DecodedInstruction) : Option CompileError :=
  instruction.constant?.bind ConstantValue.fault?

/-- The instruction in a pool that numbers its constants in a given way. -/
def encode (number : ConstantValue → PoolIndex) : DecodedInstruction → Instruction
  | loadReference slot => .aload slot
  | loadInteger slot => .iload slot
  | loadReal slot => .dload slot
  | pushInteger value =>
      if -1 ≤ value ∧ value ≤ 5 then .iconst (.ofInt value)
      else if -128 ≤ value ∧ value ≤ 127 then .bipush (.ofInt value)
      else if -32768 ≤ value ∧ value ≤ 32767 then .sipush (.ofInt value)
      else .load (number (.integer value))
  | pushText text => .load (number (.string text))
  | pushClass name => .load (number (.classEntry name))
  | invokeStatic reference => .invokeStatic (number (.method reference))
  | invokeInterface reference count => .invokeInterface (number (.method reference)) count

/-- Adds the constant of an instruction to the pool and gives the instruction. -/
def assemble (instruction : DecodedInstruction) : PoolAction Instruction :=
  match instruction.constant? with
  | some value => do
      let index ← value.add
      return instruction.encode fun _ => index
  | none => return instruction.encode fun _ => 0

theorem encode_congr {instruction : DecodedInstruction}
    {first second : ConstantValue → PoolIndex}
    (agree : ∀ value ∈ instruction.constant?, first value = second value) :
    instruction.encode first = instruction.encode second := by
  cases instruction with
  | pushInteger value =>
      by_cases short : -32768 ≤ value ∧ value ≤ 32767
      · simp [encode, short]
      · simp only [constant?, if_neg short, Option.mem_def, Option.some.injEq] at agree
        simp only [encode, agree _ rfl]
  | _ => simp_all [encode, constant?]

theorem mem_wanted_of_constant? {instruction : DecodedInstruction} {value : ConstantValue}
    (constant : instruction.constant? = some value) : value ∈ instruction.wanted := by
  rw [wanted, constant]
  exact mem_constituents value

variable {pool : ConstantPool} {values : List ConstantValue}

theorem answers_assemble (represents : pool.Represents values) {instruction : DecodedInstruction}
    (sound : instruction.fault? = none) :
    ConstantPool.Answers pool.limit (absorb pool.limit values instruction.wanted)
      (fun held => instruction.encode (indexIn held)) (instruction.assemble pool) := by
  rw [wanted, assemble]
  cases constant : instruction.constant? with
  | none =>
      refine ⟨rfl, rfl, represents, encode_congr ?_⟩
      simp [constant]
  | some value =>
      have soundValue : value.fault? = none := by
        simpa [fault?, constant] using sound
      have answers := ConstantPool.answers_map (fun index => instruction.encode fun _ => index)
        (ConstantPool.answers_add represents soundValue)
      have same (held : List ConstantValue) :
          instruction.encode (fun _ => indexIn held value) =
            instruction.encode (indexIn held) := by
        apply encode_congr
        simp [constant]
      simpa only [same] using answers

theorem assemble_of_fault {instruction : DecodedInstruction} {error : CompileError}
    (faulty : instruction.fault? = some error) (pool : ConstantPool) :
    instruction.assemble pool = .error error pool := by
  cases constant : instruction.constant? with
  | none => simp [fault?, constant] at faulty
  | some value =>
      simp only [fault?, constant, Option.bind_some] at faulty
      simp only [assemble, constant]
      change EStateM.bind value.add _ pool = _
      rw [EStateM.bind, ConstantPool.add_of_fault faulty]

/-- In a pool that holds its constant, assembling an instruction changes nothing. -/
theorem assemble_of_known (represents : pool.Represents values) {instruction : DecodedInstruction}
    (sound : instruction.fault? = none)
    (known : ∀ value ∈ instruction.constant?, value ∈ values) :
    instruction.assemble pool = .ok (instruction.encode (indexIn values)) pool := by
  rw [assemble]
  cases constant : instruction.constant? with
  | none =>
      have same : instruction.encode (fun _ => 0) = instruction.encode (indexIn values) := by
        apply encode_congr
        simp [constant]
      rw [← same]
      rfl
  | some value =>
      have soundValue : value.fault? = none := by
        simpa [fault?, constant] using sound
      have same : instruction.encode (fun _ => indexIn values value) =
          instruction.encode (indexIn values) := by
        apply encode_congr
        simp [constant]
      rw [← same]
      exact bind_of_eq_ok (ConstantPool.add_of_mem represents soundValue (known value constant))

theorem decode?_load (pool : ConstantPool) (index : PoolIndex) :
    (Instruction.load index).decode? pool = pool.pushOf? index := by
  rw [Instruction.load]
  split_ifs <;> rfl

/-- In a pool that holds its constant, an instruction means what it has been assembled from. -/
theorem decode?_encode (represents : pool.Represents values) {instruction : DecodedInstruction}
    (known : ∀ value ∈ instruction.constant?, value ∈ values) :
    (instruction.encode (indexIn values)).decode? pool = some instruction := by
  cases instruction with
  | pushInteger value =>
      simp only [encode]
      split_ifs with tiny byte short
      · have same : (Int8.ofInt value).toInt = value :=
          Int8.toInt_ofInt_of_le (by omega) (by omega)
        simp only [Instruction.decode?, same]
      · have same : (Int8.ofInt value).toInt = value :=
          Int8.toInt_ofInt_of_le (by omega) (by omega)
        simp only [Instruction.decode?, same]
      · have same : (Int16.ofInt value).toInt = value :=
          Int16.toInt_ofInt_of_le (by omega) (by omega)
        simp only [Instruction.decode?, same]
      · simp only [constant?, if_neg short, Option.mem_def, Option.some.injEq] at known
        have found := represents.valueAt?_indexIn (known (.integer value) rfl)
        simp [decode?_load, ConstantPool.pushOf?, found]
  | pushText text =>
      have found := represents.valueAt?_indexIn (known (.string text) rfl)
      simp [encode, decode?_load, ConstantPool.pushOf?, found]
  | pushClass name =>
      have found := represents.valueAt?_indexIn (known (.classEntry name) rfl)
      simp [encode, decode?_load, ConstantPool.pushOf?, found]
  | invokeStatic reference =>
      have found := represents.methodReference?_indexIn (known (.method reference) rfl)
      simp [encode, Instruction.decode?, found]
  | invokeInterface reference count =>
      have found := represents.methodReference?_indexIn (known (.method reference) rfl)
      simp [encode, Instruction.decode?, found]
  | _ => rfl

end DecodedInstruction

/-- Code means what it has been assembled from, instruction by instruction. -/
theorem Code.decode?_map_encode {pool : ConstantPool} {values : List ConstantValue}
    (represents : pool.Represents values) {plan : List DecodedInstruction}
    (known : ∀ instruction ∈ plan, ∀ value ∈ instruction.constant?, value ∈ values) :
    Code.decode? pool (plan.map (DecodedInstruction.encode (indexIn values))) = some plan := by
  induction plan with
  | nil => rfl
  | cons instruction others ih =>
      have first := DecodedInstruction.decode?_encode represents (known instruction (by simp))
      have rest := ih fun other member => known other (by simp [member])
      rw [Code.decode?] at rest ⊢
      simp [first, rest]

end NodeNames
