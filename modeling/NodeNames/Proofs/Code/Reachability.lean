import NodeNames.Proofs.Machine.Climb
import NodeNames.Proofs.Pool.HashConsing
/-!
# Reachable constants

Code refers to constants, and constants refer to their parts. A pool without
orphans has exactly the entries that code refers to in this way. In terms of
values these are the constituents of the constants that instructions have, so
that it is enough to know which values the pool holds.
-/

namespace NodeNames

open ConstantValue

/-- The indices that an entry refers to. -/
def Constant.references : Constant → List PoolIndex
  | utf8 _ | integer _ => []
  | string text => [text]
  | classEntry name => [name]
  | nameAndType name descriptor => [name, descriptor]
  | methodReference _ owner nameType => [owner, nameType]

namespace Instruction

/-- The index that an instruction refers to. -/
def reference? : Instruction → Option PoolIndex
  | ldc index | ldcWide index | invokeStatic index | invokeInterface index _ => some index
  | aload _ | iload _ | dload _ | iconst _ | bipush _ | sipush _ => none

/-- The method that an instruction invokes. -/
def invoked? (pool : ConstantPool) : Instruction → Option MethodReference
  | invokeStatic index | invokeInterface index _ => pool.methodReference? index
  | aload _ | iload _ | dload _ | iconst _ | bipush _ | sipush _ | ldc _ | ldcWide _ => none

end Instruction

/-- Whether some instruction invokes a method. -/
def Code.invokes (pool : ConstantPool) (code : Code) (reference : MethodReference) : Bool :=
  code.any fun instruction => instruction.invoked? pool = some reference

/-- An index that code refers to, itself or through entries. -/
inductive ConstantPool.Reachable (pool : ConstantPool) (code : Code) : PoolIndex → Prop where
  | direct {instruction : Instruction} {index : PoolIndex} (emitted : instruction ∈ code)
      (refers : instruction.reference? = some index) : Reachable pool code index
  | part {index part : PoolIndex} {entry : Constant} (whole : Reachable pool code index)
      (found : pool.get? index = some entry) (isPart : part ∈ entry.references) :
      Reachable pool code part

namespace ConstantValue

theorem references_entry (value : ConstantValue) (number : ConstantValue → PoolIndex) :
    (value.entry number).references = value.parts.map number := by
  cases value <;> rfl

end ConstantValue

namespace DecodedInstruction

variable {number : ConstantValue → PoolIndex} {instruction : DecodedInstruction}

theorem reference?_load (index : PoolIndex) :
    (Instruction.load index).reference? = some index := by
  rw [Instruction.load]
  split_ifs <;> rfl

theorem encode_pushInteger_of_wide {value : Int} (wide : ¬(-32768 ≤ value ∧ value ≤ 32767)) :
    (pushInteger value).encode number = .load (number (.integer value)) := by
  have notByte : ¬(-128 ≤ value ∧ value ≤ 127) := by omega
  have notTiny : ¬(-1 ≤ value ∧ value ≤ 5) := by omega
  simp only [encode, if_neg wide, if_neg notByte, if_neg notTiny]

/-- An instruction refers to the constant that it has. -/
theorem reference?_encode : (instruction.encode number).reference? =
    instruction.constant?.map number := by
  cases instruction with
  | pushInteger value =>
      by_cases short : -32768 ≤ value ∧ value ≤ 32767
      · simp only [encode, constant?, if_pos short]
        split_ifs <;> rfl
      · rw [encode_pushInteger_of_wide short, reference?_load, constant?, if_neg short]
        rfl
  | pushText text | pushClass name => exact reference?_load _
  | loadReference slot | loadInteger slot | loadReal slot | invokeStatic reference
  | invokeInterface reference count => rfl

theorem mem_wanted_iff {value : ConstantValue} :
    value ∈ instruction.wanted ↔
      ∃ whole, instruction.constant? = some whole ∧ value ∈ whole.constituents := by
  rw [wanted]
  cases instruction.constant? <;> simp

theorem method_mem_wanted_iff {reference : MethodReference} :
    method reference ∈ instruction.wanted ↔ instruction.constant? = some (method reference) := by
  rw [mem_wanted_iff]
  constructor
  · rintro ⟨whole, isConstant, isInside⟩
    cases whole <;> simp [constituents] at isInside
    rw [isConstant, isInside]
  · intro isConstant
    exact ⟨_, isConstant, mem_constituents _⟩

variable {pool : ConstantPool} {values : List ConstantValue}

theorem invoked?_load (index : PoolIndex) : (Instruction.load index).invoked? pool = none := by
  rw [Instruction.load]
  split_ifs <;> rfl

/-- An instruction that has the reference of a method invokes the method. -/
theorem invoked?_encode_iff (represents : pool.Represents values)
    (known : ∀ value ∈ instruction.constant?, value ∈ values) {reference : MethodReference} :
    (instruction.encode (indexIn values)).invoked? pool = some reference ↔
      instruction.constant? = some (method reference) := by
  cases instruction with
  | pushInteger value =>
      by_cases short : -32768 ≤ value ∧ value ≤ 32767
      · simp only [encode, constant?, if_pos short]
        split_ifs <;> simp [Instruction.invoked?]
      · simp [encode_pushInteger_of_wide short, invoked?_load, constant?, if_neg short]
  | pushText text | pushClass name => simp [encode, constant?, invoked?_load]
  | loadReference slot | loadInteger slot | loadReal slot =>
      simp [encode, constant?, Instruction.invoked?]
  | invokeStatic invoked | invokeInterface invoked count =>
      have found := represents.methodReference?_indexIn (known (method invoked) rfl)
      simp [encode, constant?, Instruction.invoked?, found]

end DecodedInstruction

namespace ConstantPool.Represents

variable {pool : ConstantPool} {values : List ConstantValue}

/-- A pool represents one list of values only. -/
theorem unique {others : List ConstantValue} (represents : pool.Represents values)
    (alsoRepresents : pool.Represents others) : values = others := by
  apply List.ext_getElem?
  intro position
  rw [← represents.valueAt?_succ, ← alsoRepresents.valueAt?_succ]

theorem isSome_get?_iff_mem (represents : pool.Represents values) (index : PoolIndex) :
    (pool.get? index).isSome ↔ ∃ value ∈ values, index = indexIn values value := by
  constructor
  · intro found
    rcases Option.isSome_iff_exists.mp found with ⟨entry, isEntry⟩
    rcases represents.index_of_get? isEntry with ⟨position, value, rfl, atPosition, _⟩
    rw [← represents.valueAt?_succ] at atPosition
    exact ⟨value, represents.index_of_valueAt? atPosition⟩
  · rintro ⟨value, known, rfl⟩
    rw [represents.get?_indexIn known]
    rfl

/-- How often a method of a given name is referred to, if its name belongs to no other one. -/
theorem countReferences_eq (represents : pool.Represents values) {reference : MethodReference}
    (distinct : ∀ other, method other ∈ values → other.name = reference.name →
      other = reference) :
    pool.countReferences reference.name = if method reference ∈ values then 1 else 0 := by
  have counted : ∀ entry ∈ values.zipIdx,
      ((pool.methodReference? (entry.2 + 1)).any (·.name = reference.name) = true ↔
        decide (entry.1 = method reference) = true) := by
    intro entry isEntry
    have atPosition : values[entry.2]? = some entry.1 := List.mem_zipIdx_iff_getElem?.mp isEntry
    rw [← represents.valueAt?_succ] at atPosition
    rw [Option.any_eq_true, decide_eq_true_eq]
    constructor
    · rintro ⟨other, found, sameName⟩
      rw [← valueAt?_eq_method_iff, atPosition, Option.some.injEq] at found
      have known := (represents.index_of_valueAt? atPosition).1
      rw [found] at known ⊢
      rw [distinct other known (by simpa using sameName)]
    · intro isReference
      rw [isReference, valueAt?_eq_method_iff] at atPosition
      exact ⟨reference, atPosition, by simp⟩
  calc
    pool.countReferences reference.name
        = values.zipIdx.countP fun entry =>
            (pool.methodReference? (entry.2 + 1)).any (·.name = reference.name) := by
          rw [countReferences, toList, represents.items, List.zipIdx_map, List.map_map,
            List.countP_map]
          rfl
    _ = values.zipIdx.countP fun entry => decide (entry.1 = method reference) :=
          List.countP_congr counted
    _ = values.countP fun value => decide (value = method reference) := by
          conv_rhs => rw [← List.zipIdx_map_fst 0 values, List.countP_map]
          rfl
    _ = if method reference ∈ values then 1 else 0 :=
          represents.distinct.count

end ConstantPool.Represents

/-- Code in a pool that holds what its instructions want and nothing else. -/
structure Code.Fills (code : Code) (pool : ConstantPool) (plan : List DecodedInstruction)
    (values : List ConstantValue) : Prop where
  represents : pool.Represents values
  encoded : code = plan.map (DecodedInstruction.encode (indexIn values))
  mem_iff : ∀ value, value ∈ values ↔ ∃ instruction ∈ plan, value ∈ instruction.wanted

namespace Code.Fills

variable {code : Code} {pool : ConstantPool} {plan : List DecodedInstruction}
  {values : List ConstantValue}

theorem known (fills : code.Fills pool plan values) {instruction : DecodedInstruction}
    (isPlanned : instruction ∈ plan) :
    ∀ value ∈ instruction.constant?, value ∈ values := by
  intro value isConstant
  rw [fills.mem_iff]
  exact ⟨instruction, isPlanned, DecodedInstruction.mem_wanted_of_constant? isConstant⟩

/-- What code refers to is one of the values that its instructions want. -/
theorem mem_of_reachable (fills : code.Fills pool plan values) {index : PoolIndex}
    (reachable : pool.Reachable code index) : ∃ value ∈ values, index = indexIn values value := by
  induction reachable with
  | direct emitted refers =>
      rw [fills.encoded] at emitted
      rcases List.mem_map.mp emitted with ⟨instruction, isPlanned, rfl⟩
      rw [DecodedInstruction.reference?_encode, Option.map_eq_some_iff] at refers
      rcases refers with ⟨value, isConstant, rfl⟩
      exact ⟨value, fills.known isPlanned value isConstant, rfl⟩
  | part _ found isPart whole =>
      rcases whole with ⟨value, known, rfl⟩
      rw [fills.represents.get?_indexIn known, Option.some.injEq] at found
      rw [← found, references_entry] at isPart
      rcases List.mem_map.mp isPart with ⟨part, isInside, rfl⟩
      exact ⟨part, fills.represents.part_mem known isInside, rfl⟩

/-- All values that an instruction wants can be reached from it. -/
theorem reachable_of_mem (fills : code.Fills pool plan values) {value : ConstantValue}
    (known : value ∈ values) : pool.Reachable code (indexIn values value) := by
  rcases (fills.mem_iff value).mp known with ⟨instruction, isPlanned, isWanted⟩
  rcases DecodedInstruction.mem_wanted_iff.mp isWanted with ⟨whole, isConstant, isInside⟩
  have isKnown := fills.known isPlanned whole isConstant
  have emitted : instruction.encode (indexIn values) ∈ code := by
    rw [fills.encoded]
    exact List.mem_map.mpr ⟨instruction, isPlanned, rfl⟩
  have refers : (instruction.encode (indexIn values)).reference? =
      some (indexIn values whole) := by
    rw [DecodedInstruction.reference?_encode, isConstant]
    rfl
  -- from the constant of the instruction down to its parts
  refine (of_mem_constituents (motive := fun value =>
    value ∈ values ∧ pool.Reachable code (indexIn values value))
    ⟨isKnown, .direct emitted refers⟩ ?_ value isInside).2
  rintro value ⟨valueKnown, reachable⟩ part isPart
  refine ⟨fills.represents.part_mem valueKnown isPart,
    reachable.part (fills.represents.get?_indexIn valueKnown) ?_⟩
  rw [references_entry]
  exact List.mem_map.mpr ⟨part, isPart, rfl⟩

/-- The pool has exactly the entries that can be reached from the code. -/
theorem isSome_get?_iff_reachable (fills : code.Fills pool plan values) (index : PoolIndex) :
    (pool.get? index).isSome ↔ pool.Reachable code index := by
  rw [fills.represents.isSome_get?_iff_mem]
  constructor
  · rintro ⟨value, known, rfl⟩
    exact fills.reachable_of_mem known
  · exact fills.mem_of_reachable

theorem invokes_iff_mem (fills : code.Fills pool plan values) (reference : MethodReference) :
    code.invokes pool reference = true ↔ method reference ∈ values := by
  rw [Code.invokes, List.any_eq_true, fills.mem_iff, fills.encoded]
  constructor
  · rintro ⟨instruction, emitted, invoked⟩
    rcases List.mem_map.mp emitted with ⟨decoded, isPlanned, rfl⟩
    refine ⟨decoded, isPlanned, DecodedInstruction.method_mem_wanted_iff.mpr ?_⟩
    exact (DecodedInstruction.invoked?_encode_iff fills.represents (fills.known isPlanned)).mp
      (by simpa using invoked)
  · rintro ⟨decoded, isPlanned, isWanted⟩
    refine ⟨decoded.encode (indexIn values), List.mem_map.mpr ⟨decoded, isPlanned, rfl⟩, ?_⟩
    have invoked := (DecodedInstruction.invoked?_encode_iff fills.represents
      (fills.known isPlanned)).mpr (DecodedInstruction.method_mem_wanted_iff.mp isWanted)
    simpa using invoked

/-- Code that is added with what it wants leaves no orphans either. -/
theorem append (fills : code.Fills pool plan values) {grown : ConstantPool}
    {held : List ConstantValue} (represents : grown.Represents held) (longer : values <+: held)
    {further : List DecodedInstruction}
    (mem_iff : ∀ value, value ∈ held ↔
      value ∈ values ∨ ∃ instruction ∈ further, value ∈ instruction.wanted) :
    Code.Fills (code ++ further.map (DecodedInstruction.encode (indexIn held))) grown
      (plan ++ further) held where
  represents := represents
  encoded := by
    rw [List.map_append, fills.encoded]
    congr 1
    apply List.map_congr_left
    intro instruction isPlanned
    apply DecodedInstruction.encode_congr
    intro value isConstant
    exact (indexIn_of_longer longer (fills.known isPlanned value isConstant)).symm
  mem_iff := by
    intro value
    rw [mem_iff, fills.mem_iff]
    simp only [List.mem_append, or_and_right, exists_or]

end Code.Fills

end NodeNames
