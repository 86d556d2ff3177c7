import NodeNames.Proofs.Code.Listing
import NodeNames.Proofs.Machine.Effect
import NodeNames.Proofs.Pool.HashConsing
/-!
# Encodable code

A class file can have an instruction if its operands fit the form of the
instruction and its index stands for an entry of the kind that the form asks
for. Verification looks neither at the range of a short constant nor at the entry
that a load pushes, so that code which passes it need not be encodable.
-/

namespace NodeNames

open ConstantValue

/-- The index of an integer or a text, which a load can push. -/
def ConstantPool.HasLoadable (pool : ConstantPool) (index : PoolIndex) : Prop :=
  (∃ value, pool.valueAt? index = some (.integer value)) ∨
    ∃ text, pool.valueAt? index = some (.string text)

/-- An instruction that a class file with the given constants can have; an index has two bytes. -/
def Instruction.Encodable (pool : ConstantPool) : Instruction → Prop
  | aload _ | iload _ | dload _ | bipush _ | sipush _ => True
  | iconst value => -1 ≤ value.toInt ∧ value.toInt ≤ 5
  | ldc index => 1 ≤ index ∧ index ≤ 255 ∧ pool.HasLoadable index
  | ldcWide index => 255 < index ∧ index < 65536 ∧ pool.HasLoadable index
  | invokeStatic index =>
      index < 65536 ∧ ∃ reference, pool.methodReference? index = some reference ∧
        reference.kind = .ofClass
  | invokeInterface index count =>
      index < 65536 ∧ ∃ reference signature, pool.methodReference? index = some reference ∧
        reference.kind = .ofInterface ∧
        MethodSignature.ofDescriptor reference.descriptor = .ok signature ∧
        count.toNat = 1 + signature.argumentSlots

/-- Code that a class file with the given constants can have. -/
def Code.Encodable (pool : ConstantPool) (code : Code) : Prop :=
  ∀ instruction ∈ code, Instruction.Encodable pool instruction

/-- A decoded instruction that takes effect and pushes no class. -/
structure DecodedInstruction.Proper (instruction : DecodedInstruction) : Prop where
  effective : instruction.effect? ≠ none
  noClass : ∀ name, instruction ≠ .pushClass name

section Pools

variable {pool : ConstantPool} {values : List ConstantValue}

theorem indexIn_lt (represents : pool.Represents values) (capacity : pool.limit ≤ poolCapacity)
    {value : ConstantValue} (known : value ∈ values) : indexIn values value < 65536 := by
  have inside := List.idxOf_lt_length_iff.mpr known
  have short := represents.length_le
  have bound : poolCapacity = 65534 := rfl
  have small : values.idxOf value + 1 < 65536 := by omega
  exact small

/-- The load of a known integer or text is of the form that its index asks for. -/
theorem encodable_load (represents : pool.Represents values) (capacity : pool.limit ≤ poolCapacity)
    {value : ConstantValue} (known : value ∈ values)
    (loadable : pool.HasLoadable (indexIn values value)) :
    (Instruction.load (indexIn values value)).Encodable pool := by
  have positive : 1 ≤ indexIn values value := Nat.le_add_left _ _
  rw [Instruction.load]
  split_ifs with short
  · exact ⟨positive, short, loadable⟩
  · exact ⟨Nat.lt_of_not_le short, indexIn_lt represents capacity known, loadable⟩

/-- In a pool that holds its constant, a proper instruction is encodable. -/
theorem DecodedInstruction.encodable_encode (represents : pool.Represents values)
    (capacity : pool.limit ≤ poolCapacity) {instruction : DecodedInstruction}
    (proper : instruction.Proper) (known : ∀ value ∈ instruction.constant?, value ∈ values) :
    (instruction.encode (indexIn values)).Encodable pool := by
  rcases Option.ne_none_iff_exists'.mp proper.effective with ⟨effect, effective⟩
  cases instruction with
  | loadReference slot | loadInteger slot | loadReal slot => trivial
  | pushInteger value =>
      simp only [encode]
      split_ifs with tiny byte short
      · have same : (Int8.ofInt value).toInt = value :=
          Int8.toInt_ofInt_of_le (by omega) (by omega)
        rw [Instruction.Encodable, same]
        exact tiny
      · trivial
      · trivial
      · simp only [constant?, if_neg short, Option.mem_def, Option.some.injEq] at known
        have isKnown := known (.integer value) rfl
        exact encodable_load represents capacity isKnown
          (.inl ⟨value, represents.valueAt?_indexIn isKnown⟩)
  | pushText text =>
      have isKnown := known (.string text) rfl
      exact encodable_load represents capacity isKnown
        (.inr ⟨text, represents.valueAt?_indexIn isKnown⟩)
  | pushClass name => exact absurd rfl (proper.noClass name)
  | invokeStatic reference =>
      have isKnown := known (.method reference) rfl
      rcases Option.map_eq_some_iff.mp effective with ⟨signature, described, _⟩
      exact ⟨indexIn_lt represents capacity isKnown, reference,
        represents.methodReference?_indexIn isKnown, (ofDescriptor_of_signature? described).1⟩
  | invokeInterface reference count =>
      have isKnown := known (.method reference) rfl
      rcases Option.bind_eq_some_iff.mp effective with ⟨signature, described, counted⟩
      split_ifs at counted with exact
      rcases ofDescriptor_of_signature? described with ⟨isKind, readable⟩
      exact ⟨indexIn_lt represents capacity isKnown, reference, signature,
        represents.methodReference?_indexIn isKnown, isKind, readable, exact⟩

end Pools

section Growth

variable {pool grown : ConstantPool} {values held : List ConstantValue}
  (represents : pool.Represents values) (grownRepresents : grown.Represents held)
  (longer : values <+: held)

include represents grownRepresents longer

theorem ConstantPool.HasLoadable.of_longer {index : PoolIndex}
    (loadable : pool.HasLoadable index) : grown.HasLoadable index := by
  rcases loadable with ⟨value, found⟩ | ⟨text, found⟩
  · exact .inl ⟨value, represents.valueAt?_of_longer grownRepresents longer found⟩
  · exact .inr ⟨text, represents.valueAt?_of_longer grownRepresents longer found⟩

theorem Instruction.Encodable.of_longer {instruction : Instruction}
    (encodable : instruction.Encodable pool) : instruction.Encodable grown := by
  cases instruction with
  | aload slot | iload slot | dload slot | bipush value | sipush value => trivial
  | iconst value => exact encodable
  | ldc index =>
      rcases encodable with ⟨positive, short, loadable⟩
      exact ⟨positive, short, loadable.of_longer represents grownRepresents longer⟩
  | ldcWide index =>
      rcases encodable with ⟨wide, small, loadable⟩
      exact ⟨wide, small, loadable.of_longer represents grownRepresents longer⟩
  | invokeStatic index =>
      rcases encodable with ⟨small, reference, found, isKind⟩
      exact ⟨small, reference,
        ConstantPool.methodReference?_of_longer represents grownRepresents longer found, isKind⟩
  | invokeInterface index count =>
      rcases encodable with ⟨small, reference, signature, found, described⟩
      exact ⟨small, reference, signature,
        ConstantPool.methodReference?_of_longer represents grownRepresents longer found, described⟩

/-- Encodable code stays encodable when the pool grows. -/
theorem Code.Encodable.of_longer {code : Code} (encodable : code.Encodable pool) :
    code.Encodable grown := by
  intro instruction isInstruction
  exact Instruction.Encodable.of_longer represents grownRepresents longer
    (encodable instruction isInstruction)

end Growth

end NodeNames
