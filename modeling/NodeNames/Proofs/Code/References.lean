import NodeNames.Proofs.Machine.Effect
import NodeNames.Proofs.Pool.HashConsing
/-!
# Verified references

Code that passes verification invokes what it should: the index of every
invocation stands for a method of the right kind, and an interface invocation
has the count that its descriptor needs. About loads verification says
nothing: it does not ask what their indices stand for, so every load can be
redirected to another index, used or not, and the result stays the same.
-/

namespace NodeNames

/--
An invocation stands for a method of its own kind, with the count that the descriptor needs if
there is a count. Other instructions invoke nothing.
-/
def Instruction.WellInvoked (pool : ConstantPool) : Instruction → Prop
  | invokeStatic index =>
      ∃ reference, pool.methodReference? index = some reference ∧ reference.kind = .ofClass
  | invokeInterface index count =>
      ∃ reference signature, pool.methodReference? index = some reference ∧
        reference.kind = .ofInterface ∧
        MethodSignature.ofDescriptor reference.descriptor = .ok signature ∧
        count.toNat = 1 + signature.argumentSlots
  | _ => True

def Code.WellInvoked (pool : ConstantPool) (code : Code) : Prop :=
  ∀ instruction ∈ code, Instruction.WellInvoked pool instruction

/-- The instruction with another index, if it is a load. -/
def Instruction.redirectLoad (redirect : PoolIndex → PoolIndex) : Instruction → Instruction
  | ldc index => ldc (redirect index)
  | ldcWide index => ldcWide (redirect index)
  | instruction => instruction

section Signatures

variable {pool : ConstantPool} {index : PoolIndex} {reference : MethodReference} {kind : MethodKind}

/-- A method reference can be resolved only if its entry is one of the same kind. -/
theorem ConstantPool.get?_of_methodReference?
    (found : pool.methodReference? index = some reference) :
    ∃ owner nameType, pool.get? index = some (.methodReference reference.kind owner nameType) := by
  rw [methodReference?] at found
  split at found
  next kind owner nameType entry =>
    split at found
    · cases found
      exact ⟨owner, nameType, entry⟩
    · cases found
  next => cases found

theorem ConstantPool.methodReference_of_none (missing : pool.methodReference? index = none) :
    pool.methodReference index = .error (.notMethodReference index) := by
  rw [methodReference, missing]

theorem ConstantPool.methodReference_of_some
    (found : pool.methodReference? index = some reference) :
    pool.methodReference index = .ok reference := by
  rw [methodReference, found]

theorem ConstantPool.signature_of_none (missing : pool.methodReference? index = none) :
    pool.signature index kind = .error (.notMethodReference index) := by
  rw [signature, methodReference_of_none missing, error_bind]

theorem ConstantPool.signature_of_some (found : pool.methodReference? index = some reference) :
    pool.signature index kind =
      if reference.kind = kind then MethodSignature.ofDescriptor reference.descriptor
      else .error (.wrongMethodKind index reference kind) := by
  rw [signature, methodReference_of_some found, ok_bind]
  rfl

/-- A signature is found exactly for a method of the right kind with a readable descriptor. -/
theorem ConstantPool.signature_eq_ok_iff {signature : MethodSignature} :
    pool.signature index kind = .ok signature ↔
      ∃ reference, pool.methodReference? index = some reference ∧ reference.kind = kind ∧
        MethodSignature.ofDescriptor reference.descriptor = .ok signature := by
  cases found : pool.methodReference? index with
  | none => simp [signature_of_none found]
  | some reference =>
      rw [signature_of_some found]
      split_ifs with isKind <;> simp [isKind]

/-- The count is right exactly if it covers the receiver and the arguments of a method. -/
theorem Code.checkCount_invokeInterface_iff {count : UInt8} {position : Nat} :
    Code.checkCount pool position (.invokeInterface index count) = .ok () ↔
      ∃ reference signature, pool.methodReference? index = some reference ∧
        MethodSignature.ofDescriptor reference.descriptor = .ok signature ∧
        count.toNat = 1 + signature.argumentSlots := by
  rw [Code.checkCount]
  cases found : pool.methodReference? index with
  | none => simp [ConstantPool.methodReference_of_none found, error_bind]
  | some reference =>
      rw [ConstantPool.methodReference_of_some found, ok_bind]
      cases read : MethodSignature.ofDescriptor reference.descriptor with
      | error error => simp [error_bind, read]
      | ok signature =>
          rw [ok_bind]
          by_cases enough : count.toNat = 1 + signature.argumentSlots
          · simp [enough, read, pure, Except.pure]
          · simp [enough, read]

end Signatures

section Verification

variable {pool : ConstantPool} {summary later : StackSummary} {position : Nat}

/-- What verification accepts at an instruction is well invoked. -/
theorem Instruction.wellInvoked_of_verifyInstruction {instruction : Instruction}
    (verified : Code.verifyInstruction pool position instruction summary = .ok later) :
    instruction.WellInvoked pool := by
  rcases Code.verifyInstruction_eq_ok_iff.mp verified with ⟨counted, effect, effects, _⟩
  cases instruction with
  | invokeStatic index =>
      rcases bind_eq_ok_iff.mp effects with ⟨signature, described, _⟩
      rcases ConstantPool.signature_eq_ok_iff.mp described with ⟨reference, found, isKind, _⟩
      exact ⟨reference, found, isKind⟩
  | invokeInterface index count =>
      rcases bind_eq_ok_iff.mp effects with ⟨_, described, _⟩
      rcases ConstantPool.signature_eq_ok_iff.mp described with ⟨reference, found, isKind, _⟩
      rcases Code.checkCount_invokeInterface_iff.mp counted with
        ⟨counts, signature, alsoFound, readable, exact⟩
      cases found.symm.trans alsoFound
      exact ⟨reference, signature, found, isKind, readable, exact⟩
  | aload slot | iload slot | dload slot | iconst value | bipush value | sipush value | ldc index
  | ldcWide index => trivial

theorem Code.wellInvoked_of_verifyFrom {code : Code}
    (verified : Code.verifyFrom pool position summary code = .ok later) :
    code.WellInvoked pool := by
  induction code generalizing position summary with
  | nil => exact nofun
  | cons instruction others ih =>
      rcases Code.verifyFrom_cons_eq_ok_iff.mp verified with ⟨between, first, rest⟩
      rw [WellInvoked, List.forall_mem_cons]
      exact ⟨Instruction.wellInvoked_of_verifyInstruction first, ih rest⟩

/-- At a load verification depends on neither the index nor the pool: it takes one slot more. -/
theorem Code.verifyInstruction_redirectLoad (redirect : PoolIndex → PoolIndex)
    (instruction : Instruction) :
    Code.verifyInstruction pool position (instruction.redirectLoad redirect) summary =
      Code.verifyInstruction pool position instruction summary := by
  cases instruction with
  | ldc index | ldcWide index =>
      have enough : 0 ≤ summary.finalDepth := Nat.zero_le _
      simp [Instruction.redirectLoad, Code.verifyInstruction, Code.checkCount,
        Instruction.stackEffect, pure, Except.pure, ok_bind, enough]
  | aload slot | iload slot | dload slot | iconst value | bipush value | sipush value
  | invokeStatic index | invokeInterface index count => rfl

/-- Redirected loads change neither the success nor the failure of verification. -/
theorem Code.verifyFrom_redirectLoad (redirect : PoolIndex → PoolIndex) (code : Code)
    (position : Nat) (summary : StackSummary) :
    Code.verifyFrom pool position summary (code.map (Instruction.redirectLoad redirect)) =
      Code.verifyFrom pool position summary code := by
  induction code generalizing position summary with
  | nil => rfl
  | cons instruction others ih =>
      rw [List.map_cons, Code.verifyFrom, Code.verifyFrom, verifyInstruction_redirectLoad]
      cases Code.verifyInstruction pool position instruction summary with
      | error error => rfl
      | ok between =>
          rw [ok_bind, ok_bind, ih]

end Verification

/--
In verified code the index of every invocation stands for a method entry of the right kind, and the
count of every interface invocation covers the receiver and the arguments. The indices of loads are
not looked at: the code is verified with the same result whatever other indices they have.
-/
theorem Code.references_of_verify {code : Code} {pool : ConstantPool} {summary : StackSummary}
    (verified : code.verify pool = .ok summary) :
    (∀ index, .invokeStatic index ∈ code → ∃ owner nameType,
      pool.get? index = some (.methodReference .ofClass owner nameType)) ∧
    (∀ index count, .invokeInterface index count ∈ code → ∃ owner nameType reference signature,
      pool.get? index = some (.methodReference .ofInterface owner nameType) ∧
      pool.methodReference? index = some reference ∧
      MethodSignature.ofDescriptor reference.descriptor = .ok signature ∧
      count.toNat = 1 + signature.argumentSlots) ∧
    ∀ redirect : PoolIndex → PoolIndex,
      Code.verify (code.map (Instruction.redirectLoad redirect)) pool = .ok summary := by
  have invoked := Code.wellInvoked_of_verifyFrom verified
  refine ⟨?_, ?_, ?_⟩
  · intro index isInstruction
    rcases invoked _ isInstruction with ⟨reference, found, isKind⟩
    rw [← isKind]
    exact ConstantPool.get?_of_methodReference? found
  · intro index count isInstruction
    rcases invoked _ isInstruction with ⟨reference, signature, found, isKind, readable, counted⟩
    rcases ConstantPool.get?_of_methodReference? found with ⟨owner, nameType, entry⟩
    exact ⟨owner, nameType, reference, signature, isKind ▸ entry, found, readable, counted⟩
  · intro redirect
    rw [← verified]
    exact Code.verifyFrom_redirectLoad redirect code 0 _

/-- An interface invocation after which an index is loaded that the pool does not have. -/
theorem Code.references_of_verify_invokeInterface :
    let pool := ConstantValue.addAll (ConstantPool.withLimit 6)
      [.method { owner := "A", name := "m", descriptor := "()V", kind := .ofInterface }]
    Code.verify [.aload 1, .invokeInterface 6 1, .ldc 7] pool = .ok ⟨1, 1⟩ ∧
      (∃ owner nameType,
        pool.get? 6 = some (.methodReference .ofInterface owner nameType)) ∧
      Code.verify [.aload 1, .invokeInterface 6 1, .ldc 8] pool = .ok ⟨1, 1⟩ := by
  intro pool
  have verified : Code.verify [.aload 1, .invokeInterface 6 1, .ldc 7] pool = .ok ⟨1, 1⟩ := by
    decide +kernel
  rcases Code.references_of_verify verified with ⟨_, ofInterface, redirected⟩
  rcases ofInterface 6 1 (by simp) with ⟨owner, nameType, _, _, entry, _⟩
  exact ⟨verified, ⟨owner, nameType, entry⟩, redirected fun _ => 8⟩

/-- Verification accepts a load although no entry of the pool, which is empty, has its index. -/
theorem Code.verify_absentConstant :
    Code.verify [.ldc 9] (ConstantPool.withLimit poolCapacity) = .ok ⟨1, 1⟩ ∧
      (ConstantPool.withLimit poolCapacity).get? 9 = none :=
  ⟨rfl, rfl⟩

end NodeNames
