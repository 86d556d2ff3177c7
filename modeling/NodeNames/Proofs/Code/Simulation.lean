import Mathlib.Algebra.Order.Ring.Int
import Mathlib.Data.List.Induction
import Mathlib.Data.Nat.Cast.Order.Ring
import Mathlib.Order.Bounds.Basic
import NodeNames.Proofs.Code.References
import NodeNames.Proofs.Machine.Climb
/-!
# Verification and the depths of the stack

Before each instruction the stack is as deep as the instructions up to there
have changed it together. Code whose invocations are well formed is verified
exactly if no instruction takes more than that, and the summary tells the last
and the greatest of these depths. Other code is refused for its first
instruction that is at fault, and for the fault of it that is looked for first.
-/

namespace NodeNames

open ConstantValue

/--
What is at fault with an instruction at a depth of the stack. A case has as its conditions that the
faults which are looked for earlier are absent.
-/
inductive Instruction.Offends (pool : ConstantPool) (depth : Int) :
    Instruction → ErrorCode → Prop where
  | staticMissing {index : PoolIndex} (missing : pool.methodReference? index = none) :
      Offends pool depth (.invokeStatic index) .wrongReference
  | staticKind {index : PoolIndex} {reference : MethodReference}
      (found : pool.methodReference? index = some reference)
      (otherKind : reference.kind ≠ .ofClass) :
      Offends pool depth (.invokeStatic index) .wrongReference
  | staticUnderflow {index : PoolIndex} {reference : MethodReference}
      {signature : MethodSignature} (found : pool.methodReference? index = some reference)
      (isKind : reference.kind = .ofClass)
      (readable : MethodSignature.ofDescriptor reference.descriptor = .ok signature)
      (short : depth < signature.argumentSlots) :
      Offends pool depth (.invokeStatic index) .stackUnderflow
  | interfaceMissing {index : PoolIndex} {count : UInt8}
      (missing : pool.methodReference? index = none) :
      Offends pool depth (.invokeInterface index count) .wrongReference
  | interfaceCount {index : PoolIndex} {count : UInt8} {reference : MethodReference}
      {signature : MethodSignature} (found : pool.methodReference? index = some reference)
      (readable : MethodSignature.ofDescriptor reference.descriptor = .ok signature)
      (miscounted : count.toNat ≠ 1 + signature.argumentSlots) :
      Offends pool depth (.invokeInterface index count) .countMismatch
  | interfaceKind {index : PoolIndex} {count : UInt8} {reference : MethodReference}
      {signature : MethodSignature} (found : pool.methodReference? index = some reference)
      (readable : MethodSignature.ofDescriptor reference.descriptor = .ok signature)
      (counted : count.toNat = 1 + signature.argumentSlots)
      (otherKind : reference.kind ≠ .ofInterface) :
      Offends pool depth (.invokeInterface index count) .wrongReference
  | interfaceUnderflow {index : PoolIndex} {count : UInt8} {reference : MethodReference}
      {signature : MethodSignature} (found : pool.methodReference? index = some reference)
      (readable : MethodSignature.ofDescriptor reference.descriptor = .ok signature)
      (counted : count.toNat = 1 + signature.argumentSlots)
      (isKind : reference.kind = .ofInterface) (short : depth < count.toNat) :
      Offends pool depth (.invokeInterface index count) .stackUnderflow

namespace Code

/-- No instruction takes more from the stack than the instructions before it have left there. -/
def NeverUnderflows (pool : ConstantPool) (code : Code) : Prop :=
  ∀ position instruction, code[position]? = some instruction →
    ∃ depth effect, stackDelta pool (code.take position) = .ok depth ∧
      instruction.stackEffect pool = .ok effect ∧ effect.consumed ≤ depth

/-- The depths of the stack at the beginning and after each instruction. -/
def depths (pool : ConstantPool) (code : Code) : Set Int :=
  { depth | ∃ position, stackDelta pool (code.take position) = .ok depth }

/-- The first instruction that is at fault has a given fault. -/
def FirstOffence (pool : ConstantPool) (code : Code) (fault : ErrorCode) : Prop :=
  ∃ position instruction depth, code[position]? = some instruction ∧
    WellInvoked pool (code.take position) ∧ NeverUnderflows pool (code.take position) ∧
    stackDelta pool (code.take position) = .ok depth ∧ instruction.Offends pool depth fault

end Code

/-- The descriptor of every method in the pool can be read. -/
def ConstantPool.Readable (pool : ConstantPool) : Prop :=
  ∀ index reference, pool.methodReference? index = some reference →
    ∃ signature, MethodSignature.ofDescriptor reference.descriptor = .ok signature

/-- A method with an unreadable descriptor is never added, so that no pool has one. -/
theorem ConstantPool.readable_addAll (limit : Nat) (requests : List ConstantValue) :
    (addAll (withLimit limit) requests).Readable := by
  rcases grows_addAll (represents_withLimit limit) requests with
    ⟨_, values, _, represents, isOld⟩
  intro index reference found
  have known := (represents.index_of_valueAt? (valueAt?_eq_method_iff.mpr found)).1
  have sound := (isOld _ known).resolve_left List.not_mem_nil
  cases read : MethodSignature.ofDescriptor reference.descriptor with
  | ok signature => exact ⟨signature, rfl⟩
  | error error => simp [fault?, read] at sound

section Instructions

variable {pool : ConstantPool} {position : Nat} {instruction : Instruction}

theorem Instruction.Offends.unique {depth : Int} {fault other : ErrorCode}
    (offends : instruction.Offends pool depth fault)
    (alsoOffends : instruction.Offends pool depth other) : fault = other := by
  cases offends <;> cases alsoOffends <;> simp_all

/-- An invocation that is well formed and finds its arguments is not at fault. -/
theorem Instruction.not_offends {depth : Int} {fault : ErrorCode} {effect : StackEffect}
    (wellInvoked : instruction.WellInvoked pool)
    (effects : instruction.stackEffect pool = .ok effect) (enough : effect.consumed ≤ depth) :
    ¬instruction.Offends pool depth fault := by
  intro offends
  cases offends with
  | staticMissing missing | interfaceMissing missing => simp_all [WellInvoked]
  | staticKind found otherKind => simp_all [WellInvoked]
  | interfaceCount found readable miscounted => simp_all [WellInvoked]
  | interfaceKind found readable counted otherKind => simp_all [WellInvoked]
  | staticUnderflow found isKind readable short =>
      rcases bind_eq_ok_iff.mp effects with ⟨signature, described, isEffect⟩
      rw [ConstantPool.signature_of_some found, if_pos isKind, readable] at described
      cases described
      cases isEffect
      exact absurd enough (Int.not_le.mpr short)
  | interfaceUnderflow found readable counted isKind short =>
      rcases bind_eq_ok_iff.mp effects with ⟨signature, _, isEffect⟩
      cases isEffect
      exact absurd enough (Int.not_le.mpr short)

/-- The tests of an instruction that verification refuses, in their order. -/
theorem Code.of_verifyInstruction_eq_error {summary : StackSummary} {error : CompileError}
    (refused : Code.verifyInstruction pool position instruction summary = .error error) :
    Code.checkCount pool position instruction = .error error ∨
      Code.checkCount pool position instruction = .ok () ∧
        (instruction.stackEffect pool = .error error ∨
          ∃ effect, instruction.stackEffect pool = .ok effect ∧
            summary.finalDepth < effect.consumed ∧ error.code = .stackUnderflow) := by
  rcases bind_eq_error_iff.mp refused with miscounted | ⟨_, counted, refused⟩
  · exact .inl miscounted
  · refine .inr ⟨counted, ?_⟩
    rcases bind_eq_error_iff.mp refused with ineffective | ⟨effect, effects, refused⟩
    · exact .inl ineffective
    · refine .inr ⟨effect, effects, ?_⟩
      split_ifs at refused with enough
      · cases refused
      · obtain rfl := Except.error.inj refused
        exact ⟨Nat.lt_of_not_le enough, rfl⟩

/-- An invocation of a method that is found fails for the kind of the method or for underflow. -/
theorem Instruction.of_invocation_failed {index : PoolIndex} {kind : MethodKind}
    {effectOf : MethodSignature → StackEffect} {reference : MethodReference}
    {signature : MethodSignature} {depth : Nat} {error : CompileError}
    (effects : instruction.stackEffect pool =
      (pool.signature index kind).bind fun signature => .ok (effectOf signature))
    (found : pool.methodReference? index = some reference)
    (readable : MethodSignature.ofDescriptor reference.descriptor = .ok signature)
    (failed : instruction.stackEffect pool = .error error ∨
      ∃ effect, instruction.stackEffect pool = .ok effect ∧
        depth < effect.consumed ∧ error.code = .stackUnderflow) :
    (reference.kind ≠ kind ∧ error.code = .wrongReference) ∨
      (reference.kind = kind ∧ depth < (effectOf signature).consumed ∧
        error.code = .stackUnderflow) := by
  rw [effects, ConstantPool.signature_of_some found, readable] at failed
  split_ifs at failed with isKind
  · rcases failed with impossible | ⟨effect, isEffect, short, isUnderflow⟩
    · cases impossible
    · cases isEffect
      exact .inr ⟨isKind, short, isUnderflow⟩
  · rcases failed with isError | ⟨_, impossible, _⟩
    · cases isError
      exact .inl ⟨isKind, rfl⟩
    · cases impossible

theorem Instruction.offends_static (allReadable : pool.Readable) {index : PoolIndex} {depth : Nat}
    {error : CompileError}
    (failed : (invokeStatic index).stackEffect pool = .error error ∨
      ∃ effect, (invokeStatic index).stackEffect pool = .ok effect ∧
        depth < effect.consumed ∧ error.code = .stackUnderflow) :
    (invokeStatic index).Offends pool depth error.code := by
  cases found : pool.methodReference? index with
  | none =>
      simp only [stackEffect, ConstantPool.signature_of_none found, error_bind] at failed
      rcases failed with isError | ⟨_, impossible, _⟩
      · cases isError
        exact .staticMissing found
      · cases impossible
  | some reference =>
      rcases allReadable index reference found with ⟨signature, readable⟩
      rcases of_invocation_failed rfl found readable failed with
        ⟨otherKind, isCode⟩ | ⟨isKind, short, isCode⟩
      · rw [isCode]
        exact .staticKind found otherKind
      · rw [isCode]
        exact .staticUnderflow found isKind readable (Int.ofNat_lt.mpr short)

theorem Instruction.offends_interface {index : PoolIndex} {count : UInt8} {depth : Nat}
    {error : CompileError} {reference : MethodReference} {signature : MethodSignature}
    (found : pool.methodReference? index = some reference)
    (readable : MethodSignature.ofDescriptor reference.descriptor = .ok signature)
    (counted : count.toNat = 1 + signature.argumentSlots)
    (failed : (invokeInterface index count).stackEffect pool = .error error ∨
      ∃ effect, (invokeInterface index count).stackEffect pool = .ok effect ∧
        depth < effect.consumed ∧ error.code = .stackUnderflow) :
    (invokeInterface index count).Offends pool depth error.code := by
  rcases of_invocation_failed rfl found readable failed with
    ⟨otherKind, isCode⟩ | ⟨isKind, short, isCode⟩
  · rw [isCode]
    exact .interfaceKind found readable counted otherKind
  · rw [isCode]
    exact .interfaceUnderflow found readable counted isKind (Int.ofNat_lt.mpr short)

/-- Verification refuses an instruction for the fault of it that is looked for first. -/
theorem Instruction.offends_of_verifyInstruction (allReadable : pool.Readable)
    {summary : StackSummary} {error : CompileError}
    (refused : Code.verifyInstruction pool position instruction summary = .error error) :
    instruction.Offends pool summary.finalDepth error.code := by
  rcases Code.of_verifyInstruction_eq_error refused with miscounted | ⟨counted, failed⟩
  · cases instruction with
    | invokeInterface index count =>
        rw [Code.checkCount] at miscounted
        cases found : pool.methodReference? index with
        | none =>
            rw [ConstantPool.methodReference_of_none found, error_bind] at miscounted
            cases miscounted
            exact .interfaceMissing found
        | some reference =>
            rcases allReadable index reference found with ⟨signature, readable⟩
            rw [ConstantPool.methodReference_of_some found, ok_bind, readable, ok_bind]
              at miscounted
            dsimp only at miscounted
            split_ifs at miscounted with enough
            · cases miscounted
            · obtain rfl := Except.error.inj miscounted
              exact .interfaceCount found readable enough
    | aload slot | iload slot | dload slot | iconst value | bipush value | sipush value
    | ldc index | ldcWide index | invokeStatic index => cases miscounted
  · cases instruction with
    | invokeStatic index => exact offends_static allReadable failed
    | invokeInterface index count =>
        rcases Code.checkCount_invokeInterface_iff.mp counted with
          ⟨reference, signature, found, readable, exact⟩
        exact offends_interface found readable exact failed
    | aload slot | iload slot | dload slot | iconst value | bipush value | sipush value
    | ldc index | ldcWide index =>
        -- nothing is taken from the stack, so that there is always enough
        rcases failed with impossible | ⟨effect, effects, short, _⟩
        · cases impossible
        · cases effects
          exact absurd short (Nat.not_lt_zero _)

end Instructions

namespace Code

variable {pool : ConstantPool} {before code : Code} {instruction : Instruction} {depth : Int}
  {effect : StackEffect}

theorem stackDelta_append_of_ok {first second : Code} {firstDelta secondDelta : Int}
    (isFirst : stackDelta pool first = .ok firstDelta)
    (isSecond : stackDelta pool second = .ok secondDelta) :
    stackDelta pool (first ++ second) = .ok (firstDelta + secondDelta) := by
  induction first generalizing firstDelta with
  | nil =>
      cases isFirst
      rw [List.nil_append, isSecond, Int.zero_add]
  | cons instruction others ih =>
      rw [stackDelta] at isFirst
      rcases bind_eq_ok_iff.mp isFirst with ⟨effect, effects, isFirst⟩
      rcases bind_eq_ok_iff.mp isFirst with ⟨delta, isOthers, isFirst⟩
      cases isFirst
      rw [List.cons_append, stackDelta, effects, ok_bind, ih isOthers, ok_bind, Int.add_assoc]
      rfl

theorem stackDelta_concat (isBefore : stackDelta pool before = .ok depth)
    (effects : instruction.stackEffect pool = .ok effect) :
    stackDelta pool (before ++ [instruction]) = .ok (depth + effect.delta) := by
  apply stackDelta_append_of_ok isBefore
  rw [stackDelta, effects, ok_bind, stackDelta]
  exact congrArg Except.ok (Int.add_zero _)

/-- The instructions of longer code are those before the last one and the last one. -/
theorem getElem?_concat_cases {position : Nat} {found : Instruction}
    (isThere : (before ++ [instruction])[position]? = some found) :
    (position < before.length ∧ before[position]? = some found) ∨
      (position = before.length ∧ found = instruction) := by
  rcases Nat.lt_trichotomy position before.length with inside | atEnd | outside
  · rw [List.getElem?_append_left inside] at isThere
    exact .inl ⟨inside, isThere⟩
  · subst atEnd
    rw [List.getElem?_concat_length] at isThere
    exact .inr ⟨rfl, (Option.some.inj isThere).symm⟩
  · have whole : (before ++ [instruction]).length ≤ position := by
      rw [List.length_append, List.length_singleton]
      exact outside
    rw [List.getElem?_eq_none whole] at isThere
    cases isThere

theorem NeverUnderflows.concat (fits : NeverUnderflows pool before)
    (isBefore : stackDelta pool before = .ok depth)
    (effects : instruction.stackEffect pool = .ok effect) (enough : effect.consumed ≤ depth) :
    NeverUnderflows pool (before ++ [instruction]) := by
  intro position found isThere
  rcases getElem?_concat_cases isThere with ⟨inside, earlier⟩ | ⟨rfl, rfl⟩
  · rw [List.take_append_of_le_length (Nat.le_of_lt inside)]
    exact fits position found earlier
  · rw [List.take_left]
    exact ⟨depth, effect, isBefore, effects, enough⟩

/-- One instruction more adds the depth after it. -/
theorem depths_concat {last : Int}
    (isWhole : stackDelta pool (before ++ [instruction]) = .ok last) :
    depths pool (before ++ [instruction]) = insert last (depths pool before) := by
  ext depth
  constructor
  · rintro ⟨position, isDepth⟩
    by_cases inside : position ≤ before.length
    · rw [List.take_append_of_le_length inside] at isDepth
      exact .inr ⟨position, isDepth⟩
    · have whole : (before ++ [instruction]).length ≤ position := by
        rw [List.length_append, List.length_singleton]
        omega
      rw [List.take_of_length_le whole, isWhole] at isDepth
      exact .inl (Except.ok.inj isDepth).symm
  · rintro (rfl | ⟨position, isDepth⟩)
    · refine ⟨(before ++ [instruction]).length, ?_⟩
      rw [List.take_length]
      exact isWhole
    · -- a prefix of the shorter code may be asked for with a position beyond its end
      refine ⟨min position before.length, ?_⟩
      rw [List.take_append_of_le_length (Nat.min_le_right _ _), ← List.take_eq_take_min]
      exact isDepth

/-- What verification accepts never underflows, and the summary tells its depths. -/
theorem of_verify {summary : StackSummary} (verified : code.verify pool = .ok summary) :
    NeverUnderflows pool code ∧ stackDelta pool code = .ok summary.finalDepth ∧
      IsGreatest (depths pool code) summary.maxStack := by
  -- code grows at its end, so that what comes before an instruction is a prefix throughout
  induction code using List.reverseRecOn generalizing summary with
  | nil =>
      cases verified
      refine ⟨by simp [NeverUnderflows], rfl, ⟨0, rfl⟩, ?_⟩
      rintro depth ⟨position, isDepth⟩
      rw [List.take_nil] at isDepth
      cases isDepth
      exact Int.le_refl 0
  | append_singleton before instruction ih =>
      rw [verify_concat] at verified
      rcases bind_eq_ok_iff.mp verified with ⟨between, isBefore, isLast⟩
      rcases ih isBefore with ⟨fits, isDepth, greatest⟩
      rcases verifyInstruction_eq_ok_iff.mp isLast with ⟨_, effect, effects, enough, rfl⟩
      have isWhole := stackDelta_concat isDepth effects
      have sameDepth : (between.finalDepth : Int) + effect.delta =
          (between.finalDepth - effect.consumed + effect.produced : Nat) := by
        rw [StackEffect.delta]
        omega
      rw [sameDepth] at isWhole
      refine ⟨fits.concat isDepth effects (Int.ofNat_le.mpr enough), isWhole, ?_⟩
      rw [depths_concat isWhole, Nat.max_comm, Nat.cast_max]
      exact greatest.insert _

/-- An offence stays the first one whatever instruction follows. -/
theorem FirstOffence.concat {fault : ErrorCode} (offence : FirstOffence pool before fault)
    (instruction : Instruction) : FirstOffence pool (before ++ [instruction]) fault := by
  rcases offence with ⟨position, offender, depth, isThere, offends⟩
  have inside := (List.getElem?_eq_some_iff.mp isThere).1
  refine ⟨position, offender, depth, ?_, ?_⟩
  · rw [List.getElem?_append_left inside, isThere]
  · rw [List.take_append_of_le_length (Nat.le_of_lt inside)]
    exact offends

/-- What verification refuses has a first instruction at fault, with the code of the refusal. -/
theorem firstOffence_of_verify (allReadable : pool.Readable) {error : CompileError}
    (refused : code.verify pool = .error error) : FirstOffence pool code error.code := by
  induction code using List.reverseRecOn with
  | nil => cases refused
  | append_singleton before instruction ih =>
      rw [verify_concat] at refused
      rcases bind_eq_error_iff.mp refused with earlier | ⟨between, isBefore, isLast⟩
      · exact (ih earlier).concat instruction
      · rcases of_verify isBefore with ⟨fits, isDepth, _⟩
        refine ⟨before.length, instruction, between.finalDepth, List.getElem?_concat_length, ?_⟩
        rw [List.take_left]
        exact ⟨wellInvoked_of_verifyFrom isBefore, fits, isDepth,
          Instruction.offends_of_verifyInstruction allReadable isLast⟩

section Soundness

variable (wellInvoked : code.WellInvoked pool) (fits : NeverUnderflows pool code)

include wellInvoked fits

/-- In well formed code that never underflows no instruction is at fault. -/
theorem not_offends_of_neverUnderflows {position : Nat} {fault : ErrorCode}
    (isThere : code[position]? = some instruction)
    (isDepth : stackDelta pool (code.take position) = .ok depth) :
    ¬instruction.Offends pool depth fault := by
  rcases fits position instruction isThere with ⟨sameDepth, effect, same, effects, enough⟩
  rw [isDepth] at same
  cases same
  exact Instruction.not_offends (wellInvoked instruction (List.mem_of_getElem? isThere)) effects
    enough

theorem not_firstOffence (fault : ErrorCode) : ¬FirstOffence pool code fault := by
  rintro ⟨position, instruction, depth, isThere, _, _, isDepth, offends⟩
  exact not_offends_of_neverUnderflows wellInvoked fits isThere isDepth offends

end Soundness

/-- An instruction at fault does not come before the first one. -/
theorem le_of_offends {position other : Nat} {fault : ErrorCode}
    (wellInvoked : WellInvoked pool (code.take other))
    (fits : NeverUnderflows pool (code.take other)) (isThere : code[position]? = some instruction)
    (isDepth : stackDelta pool (code.take position) = .ok depth)
    (offends : instruction.Offends pool depth fault) : other ≤ position := by
  by_contra earlier
  have isThereToo : (code.take other)[position]? = some instruction := by
    rw [List.getElem?_take_of_lt (Nat.lt_of_not_le earlier), isThere]
  refine not_offends_of_neverUnderflows wellInvoked fits isThereToo ?_ offends
  rw [List.take_take, Nat.min_eq_left (Nat.le_of_not_le earlier), isDepth]

/-- Code has at most one first fault. -/
theorem FirstOffence.unique {fault other : ErrorCode} (offence : FirstOffence pool code fault)
    (alsoOffence : FirstOffence pool code other) : fault = other := by
  rcases offence with ⟨position, instruction, depth, isThere, invoked, fits, isDepth, offends⟩
  rcases alsoOffence with
    ⟨otherPosition, offender, otherDepth, isThereToo, alsoInvoked, alsoFits, isOther, alsoOffends⟩
  have samePosition : otherPosition = position := Nat.le_antisymm
    (le_of_offends alsoInvoked alsoFits isThere isDepth offends)
    (le_of_offends invoked fits isThereToo isOther alsoOffends)
  subst samePosition
  cases isThere.symm.trans isThereToo
  cases isDepth.symm.trans isOther
  exact offends.unique alsoOffends

/--
Code is verified in a pool that has come about by requests exactly if its invocations are well
formed and no instruction takes more from the stack than the earlier instructions have left there.
The summary then has the depth at the end, which is the change over the whole code, and the greatest
of the depths on the way, from zero at the beginning. All other code is refused with the code of the
fault of its first instruction at fault.
-/
theorem verify_simulates (limit : Nat) (requests : List ConstantValue) (code : Code) :
    let pool := addAll (ConstantPool.withLimit limit) requests
    ((∃ summary, code.verify pool = .ok summary) ↔
        code.WellInvoked pool ∧ NeverUnderflows pool code) ∧
      (∀ summary, code.verify pool = .ok summary →
        stackDelta pool code = .ok summary.finalDepth ∧
          IsGreatest (depths pool code) summary.maxStack) ∧
      ∀ fault, (∃ error, code.verify pool = .error error ∧ error.code = fault) ↔
        FirstOffence pool code fault := by
  intro pool
  have allReadable : pool.Readable := ConstantPool.readable_addAll limit requests
  refine ⟨⟨?_, ?_⟩, ?_, ?_⟩
  · rintro ⟨summary, verified⟩
    exact ⟨wellInvoked_of_verifyFrom verified, (of_verify verified).1⟩
  · rintro ⟨wellInvoked, fits⟩
    cases result : code.verify pool with
    | ok summary => exact ⟨summary, rfl⟩
    | error error =>
        exact absurd (firstOffence_of_verify allReadable result)
          (not_firstOffence wellInvoked fits _)
  · intro summary verified
    exact (of_verify verified).2
  · intro fault
    constructor
    · rintro ⟨error, refused, rfl⟩
      exact firstOffence_of_verify allReadable refused
    · intro offence
      cases result : code.verify pool with
      | ok summary =>
          exact absurd offence
            (not_firstOffence (wellInvoked_of_verifyFrom result) (of_verify result).1 fault)
      | error error =>
          exact ⟨error, rfl, (firstOffence_of_verify allReadable result).unique offence⟩

/-- What is pushed later does not make up for an underflow. -/
example :
    let pool := addAll (ConstantPool.withLimit 6)
      [.method { owner := "A", name := "m", descriptor := "(I)V", kind := .ofClass }]
    let code : Code := [.invokeStatic 6, .iconst 1, .iconst 1]
    code.verify pool = .error (.stackUnderflow 0 "invokestatic A.m(I)V" 1 0) ∧
      code.stackDelta pool = .ok 1 := by
  decide +kernel

end Code

end NodeNames
