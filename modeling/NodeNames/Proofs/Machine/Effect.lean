import NodeNames.Code.Verification
import NodeNames.Proofs.Machine.Execution
import NodeNames.Proofs.Sequencing
/-!
# Effects

How many slots an instruction takes from the stack and puts back depends on the
meaning of the instruction only. Verification follows these effects.
-/

namespace NodeNames

/-- The slots that an instruction takes from the stack and puts back, if its method can be called. -/
def DecodedInstruction.effect? : DecodedInstruction → Option StackEffect
  | loadReference _ | loadInteger _ | pushInteger _ | pushText _ | pushClass _ => some ⟨0, 1⟩
  | loadReal _ => some ⟨0, 2⟩
  | invokeStatic reference =>
      (reference.signature? .ofClass).map fun signature =>
        ⟨signature.argumentSlots, signature.resultSlots⟩
  | invokeInterface reference count =>
      (reference.signature? .ofInterface).bind fun signature =>
        if count.toNat = 1 + signature.argumentSlots then
          some ⟨count.toNat, signature.resultSlots⟩
        else none

section Signatures

variable {pool : ConstantPool} {index : PoolIndex} {reference : MethodReference}
  {signature : MethodSignature} {kind : MethodKind}

theorem ofDescriptor_of_signature? (described : reference.signature? kind = some signature) :
    reference.kind = kind ∧
      MethodSignature.ofDescriptor reference.descriptor = .ok signature := by
  rw [MethodReference.signature?] at described
  split_ifs at described with isKind
  rw [MethodSignature.ofDescriptor, described]
  exact ⟨isKind, rfl⟩

theorem signature_of_signature? (found : pool.methodReference? index = some reference)
    (described : reference.signature? kind = some signature) :
    pool.signature index kind = .ok signature := by
  rcases ofDescriptor_of_signature? described with ⟨isKind, readable⟩
  rw [ConstantPool.signature, ConstantPool.methodReference, found]
  change (if reference.kind = kind then _ else _) = _
  rw [if_pos isKind, readable]

end Signatures

section Verification

variable {pool : ConstantPool} {summary later : StackSummary} {position : Nat}

theorem effect_of_decode? {instruction : Instruction} {decoded : DecodedInstruction}
    {effect : StackEffect} (decodes : instruction.decode? pool = some decoded)
    (effective : decoded.effect? = some effect) (position : Nat) :
    Code.checkCount pool position instruction = .ok () ∧
      instruction.stackEffect pool = .ok effect := by
  cases instruction with
  | aload slot | iload slot | dload slot | iconst value | bipush value | sipush value =>
      cases decodes
      cases effective
      exact ⟨rfl, rfl⟩
  | ldc index | ldcWide index =>
      refine ⟨rfl, ?_⟩
      simp only [Instruction.decode?, ConstantPool.pushOf?] at decodes
      split at decodes <;> cases decodes <;> cases effective <;> rfl
  | invokeStatic index =>
      rcases Option.map_eq_some_iff.mp decodes with ⟨reference, found, rfl⟩
      rcases Option.map_eq_some_iff.mp effective with ⟨signature, described, rfl⟩
      refine ⟨rfl, ?_⟩
      rw [Instruction.stackEffect, signature_of_signature? found described]
      rfl
  | invokeInterface index count =>
      rcases Option.map_eq_some_iff.mp decodes with ⟨reference, found, rfl⟩
      rcases Option.bind_eq_some_iff.mp effective with ⟨signature, described, counted⟩
      split_ifs at counted with enough
      cases counted
      constructor
      · rw [Code.checkCount, ConstantPool.methodReference, found, ok_bind,
          (ofDescriptor_of_signature? described).2, ok_bind]
        exact if_pos enough
      · rw [Instruction.stackEffect, signature_of_signature? found described]
        rfl

/-- What the verification of one instruction finds. -/
theorem Code.verifyInstruction_eq_ok_iff {instruction : Instruction} :
    Code.verifyInstruction pool position instruction summary = .ok later ↔
      Code.checkCount pool position instruction = .ok () ∧
      ∃ effect, instruction.stackEffect pool = .ok effect ∧
        effect.consumed ≤ summary.finalDepth ∧
        later = ⟨max summary.maxStack (summary.finalDepth - effect.consumed + effect.produced),
          summary.finalDepth - effect.consumed + effect.produced⟩ := by
  unfold Code.verifyInstruction
  cases Code.checkCount pool position instruction with
  | error error => simp [error_bind]
  | ok _ =>
      cases effects : instruction.stackEffect pool with
      | error error => simp [ok_bind, error_bind]
      | ok effect =>
          by_cases enough : effect.consumed ≤ summary.finalDepth
          · simp [ok_bind, enough, eq_comm, pure, Except.pure]
          · simp [ok_bind, enough]

theorem Code.verifyFrom_cons_eq_ok_iff {instruction : Instruction} {others : Code} :
    Code.verifyFrom pool position summary (instruction :: others) = .ok later ↔
      ∃ between, Code.verifyInstruction pool position instruction summary = .ok between ∧
        Code.verifyFrom pool (position + 1) between others = .ok later := by
  rw [Code.verifyFrom]
  cases Code.verifyInstruction pool position instruction summary with
  | error error => simp [error_bind]
  | ok between => simp [ok_bind]

theorem Code.verifyFrom_append (first second : Code) (position : Nat)
    (summary : StackSummary) :
    Code.verifyFrom pool position summary (first ++ second) =
      (Code.verifyFrom pool position summary first).bind fun between =>
        Code.verifyFrom pool (position + first.length) between second := by
  induction first generalizing position summary with
  | nil => rfl
  | cons instruction others ih =>
      rw [List.cons_append, Code.verifyFrom, Code.verifyFrom, List.length_cons]
      cases Code.verifyInstruction pool position instruction summary with
      | error error => rfl
      | ok between =>
          rw [ok_bind, ok_bind, ih, Nat.add_right_comm, Nat.add_assoc]

/-- Verification of one instruction more. -/
theorem Code.verify_concat (before : Code) (instruction : Instruction) (pool : ConstantPool) :
    Code.verify (before ++ [instruction]) pool =
      (Code.verify before pool).bind
        (Code.verifyInstruction pool before.length instruction) := by
  rw [Code.verify, Code.verifyFrom_append, Code.verify]
  congr 1
  funext between
  rw [Nat.zero_add, Code.verifyFrom]
  cases Code.verifyInstruction pool before.length instruction between <;> rfl

theorem Code.finalDepth_le_of_verifyFrom {code : Code}
    (verified : Code.verifyFrom pool position summary code = .ok later)
    (reached : summary.finalDepth ≤ summary.maxStack) : later.finalDepth ≤ later.maxStack := by
  induction code generalizing summary position with
  | nil =>
      cases verified
      exact reached
  | cons instruction others ih =>
      rcases Code.verifyFrom_cons_eq_ok_iff.mp verified with ⟨between, first, rest⟩
      rcases Code.verifyInstruction_eq_ok_iff.mp first with ⟨_, effect, _, _, rfl⟩
      exact ih rest (Nat.le_max_right _ _)

end Verification

end NodeNames
