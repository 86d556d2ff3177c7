import NodeNames.NameCall.Emission
import NodeNames.Proofs.Emission.Script
/-!
# Scripts of calls

The references of the operations that a call ends with are prepared before its
operand is pushed. Assembling their invocations afterwards finds the references
where they have been put, so that a call is emitted step by step.
-/

namespace NodeNames

open ConstantValue EmissionStep

/-- Interns the reference of an operation and gives the invocation. -/
def RuntimeOperation.prepare (operation : RuntimeOperation) : Emission Instruction := do
  return operation.invoke (← operation.intern)

def RuntimeOperation.preparations (config : Config) (operations : List RuntimeOperation) :
    List EmissionStep :=
  operations.map fun operation => .prepare (operation.reference config)

def RuntimeOperation.invocations (config : Config) (operations : List RuntimeOperation) :
    List EmissionStep :=
  operations.map fun operation => .append (operation.invocation config)

namespace RuntimeOperation

variable {config : Config} {draft later : Draft} {values : List ConstantValue}

theorem encode_invocation (operation : RuntimeOperation) (config : Config)
    (number : ConstantValue → PoolIndex) :
    (operation.invocation config).encode number =
      operation.invoke (number (method (operation.reference config))) := by
  rw [invocation, invoke]
  cases operation.kind <;> rfl

theorem intern_eq (operation : RuntimeOperation) (draft : Draft) :
    operation.intern draft = Emission.onPool
      (ConstantPool.addMethodReference (operation.reference draft.classDraft.config)) draft := by
  rw [intern, Emission.config, bind_assoc, bind_get]
  rfl

theorem prepare_of_ok {operation : RuntimeOperation} {index : PoolIndex} {pool : ConstantPool}
    (added : ConstantPool.addMethodReference (operation.reference draft.classDraft.config)
      draft.classDraft.pool = .ok index pool) :
    operation.prepare draft =
      .ok (operation.invoke index)
        { draft with classDraft := { draft.classDraft with pool } } := by
  have interned := Emission.onPool_of_eq_ok added
  rw [← intern_eq] at interned
  exact bind_of_eq_ok interned

theorem prepare_of_error {operation : RuntimeOperation} {error : CompileError}
    {pool : ConstantPool}
    (refused : ConstantPool.addMethodReference (operation.reference draft.classDraft.config)
      draft.classDraft.pool = .error error pool) :
    operation.prepare draft =
      .error error { draft with classDraft := { draft.classDraft with pool } } := by
  have failed := Emission.onPool_of_eq_error refused
  rw [← intern_eq] at failed
  exact bind_of_eq_error failed

/-- Preparing operations one by one gives their invocations in the pool that they leave behind. -/
theorem mapM_prepare_of_ok {operations : List RuntimeOperation}
    (represents : draft.classDraft.pool.Represents values)
    (performed : performAll (preparations draft.classDraft.config operations) draft =
      .ok () later) :
    ∃ held, values <+: held ∧ later.classDraft.pool.Represents held ∧
      operations.mapM prepare draft = .ok (operations.map fun operation =>
        (operation.invocation draft.classDraft.config).encode (indexIn held)) later ∧
      ∀ operation ∈ operations, method (operation.reference draft.classDraft.config) ∈ held := by
  induction operations generalizing draft values with
  | nil =>
      cases performed
      exact ⟨values, List.prefix_rfl, represents, rfl, by simp⟩
  | cons operation others ih =>
      rw [preparations, List.map_cons, performAll, perform, bind_assoc] at performed
      rw [List.mapM_cons]
      rcases exists_of_bind_eq_ok performed with ⟨index, between, added, rest⟩
      rcases Emission.exists_of_onPool_eq_ok added with ⟨pool, result, rfl⟩
      rcases @ConstantPool.represents_of_add_eq_ok _ _ represents
          (method (operation.reference draft.classDraft.config)) _ _ result with
        ⟨held, longer, poolRepresents, known, rfl⟩
      rcases @ih { draft with classDraft := { draft.classDraft with pool } } held poolRepresents
          rest with
        ⟨last, longest, lastRepresents, prepared, allKnown⟩
      refine ⟨last, longer.trans longest, lastRepresents, ?_, ?_⟩
      · rw [bind_of_eq_ok (prepare_of_ok result), bind_of_eq_ok prepared,
          ← indexIn_of_longer longest known, ← encode_invocation]
        rfl
      · intro other isOther
        rcases List.mem_cons.mp isOther with rfl | isLater
        · exact longest.subset known
        · exact allKnown other isLater

theorem mapM_prepare_of_error {operations : List RuntimeOperation} {error : CompileError}
    (performed : performAll (preparations draft.classDraft.config operations) draft =
      .error error later) :
    operations.mapM prepare draft = .error error later := by
  induction operations generalizing draft with
  | nil => cases performed
  | cons operation others ih =>
      rw [preparations, List.map_cons, performAll, perform, bind_assoc] at performed
      rw [List.mapM_cons]
      cases result : ConstantPool.addMethodReference
          (operation.reference draft.classDraft.config) draft.classDraft.pool with
      | error refusal pool =>
          rw [bind_of_eq_error (Emission.onPool_of_eq_error result)] at performed
          cases performed
          exact bind_of_eq_error (prepare_of_error result)
      | ok index pool =>
          rw [bind_of_eq_ok (Emission.onPool_of_eq_ok result), pure_bind] at performed
          rw [bind_of_eq_ok (prepare_of_ok result)]
          exact bind_of_eq_error
            (@ih { draft with classDraft := { draft.classDraft with pool } } performed)

theorem assemble_of_mem {pool : ConstantPool} (represents : pool.Represents values)
    {operation : RuntimeOperation} {config : Config}
    (sound : (method (operation.reference config)).fault? = none)
    (known : method (operation.reference config) ∈ values) :
    (operation.invocation config).assemble pool =
      .ok ((operation.invocation config).encode (indexIn values)) pool := by
  rw [Emission.assemble_invocation, encode_invocation]
  exact bind_of_eq_ok (@ConstantPool.add_of_mem _ _ represents _ sound known)

/-- Invoking operations whose references are known appends their invocations and no more. -/
theorem performAll_invocations (represents : draft.classDraft.pool.Represents values)
    {operations : List RuntimeOperation} {config : Config}
    (known : ∀ operation ∈ operations,
      method (operation.reference config) ∈ values ∧
        (method (operation.reference config)).fault? = none) :
    performAll (invocations config operations) draft =
      (operations.map fun operation =>
        (operation.invocation config).encode (indexIn values)).forM Emission.append draft := by
  induction operations generalizing draft with
  | nil => rfl
  | cons operation others ih =>
      have found := assemble_of_mem represents (known operation (by simp)).2
        (known operation (by simp)).1
      have appended (instruction : Instruction) : Emission.append instruction draft = .ok ()
          { draft with method :=
            { draft.method with code := draft.method.code ++ [instruction] } } := rfl
      rw [invocations, List.map_cons, performAll, perform, bind_assoc,
        bind_of_eq_ok (Emission.onPool_of_eq_ok found)]
      simp only [List.forM_eq_forM, List.map_cons, List.forM_cons]
      rw [bind_of_eq_ok (appended _), bind_of_eq_ok (appended _)]
      exact ih represents fun other isOther => known other (by simp [isOther])

end RuntimeOperation

open RuntimeOperation

def NameCall.script (config : Config) (method : MethodDraft) (types : NodeTypes)
    (call : NameCall) : List EmissionStep :=
  match call.operandType with
  | none => [.fail (.uncheckedCall call.function.render)]
  | some type =>
      preparations config call.function.finalOperations ++
        (Emission.operandScript config method types call.operand type ++
          invocations config call.function.finalOperations)

theorem NameCall.script_congr {first second : MethodDraft} (same : first.SameSlots second)
    (config : Config) (types : NodeTypes) (call : NameCall) :
    call.script config first types = call.script config second types := by
  simp only [script, Emission.operandScript_congr same]

theorem fault?_of_prepared {draft later : Draft} {values : List ConstantValue}
    (represents : draft.classDraft.pool.Represents values) {config : Config}
    {operations : List RuntimeOperation}
    (performed : performAll (preparations config operations) draft = .ok () later)
    {operation : RuntimeOperation} (isOperation : operation ∈ operations) :
    (method (operation.reference config)).fault? = none := by
  have outcome := outcome_performAll represents (preparations config operations)
  rw [performed] at outcome
  exact firstFault?_eq_none_iff.mp outcome.2.1 (.prepare (operation.reference config))
    (List.mem_map.mpr ⟨operation, isOperation, rfl⟩)

theorem foldl_typesAfter_preparations (types : NodeTypes) (config : Config)
    (operations : List RuntimeOperation) :
    (preparations config operations).foldl typesAfter types = types := by
  induction operations with
  | nil => rfl
  | cons operation others ih => exact ih

theorem map_encode_of_longer {earlier later : List ConstantValue} (longer : earlier <+: later)
    {config : Config} {operations : List RuntimeOperation}
    (known : ∀ operation ∈ operations, method (operation.reference config) ∈ earlier) :
    (operations.map fun operation => (operation.invocation config).encode (indexIn later)) =
      operations.map fun operation =>
        (operation.invocation config).encode (indexIn earlier) := by
  apply List.map_congr_left
  intro operation isOperation
  rw [encode_invocation, encode_invocation,
    indexIn_of_longer longer (known operation isOperation)]

/-- A call is emitted by its script. -/
theorem NameCall.emit_eq_performAll {draft : Draft} {values : List ConstantValue}
    (represents : draft.classDraft.pool.Represents values) (call : NameCall) :
    call.emit draft =
      performAll (call.script draft.classDraft.config draft.method draft.classDraft.nodeTypes)
        draft := by
  rw [emit, script]
  cases call.operandType with
  | none => rw [performAll_singleton]; rfl
  | some type =>
      dsimp only
      rw [performAll_append, performAll_append]
      cases prepared : performAll
          (preparations draft.classDraft.config call.function.finalOperations) draft with
      | error error later =>
          rw [bind_of_eq_error prepared]
          exact bind_of_eq_error (mapM_prepare_of_error prepared)
      | ok _ later =>
          rw [bind_of_eq_ok prepared]
          rcases mapM_prepare_of_ok represents prepared with
            ⟨held, longer, laterRepresents, invoked, known⟩
          refine (bind_of_eq_ok invoked).trans ?_
          have fits := fits_performAll ⟨rfl, rfl, rfl⟩ prepared
          rw [foldl_typesAfter_preparations] at fits
          have pushed := Emission.performs_pushOperand call.operand type later fits
          have outcome := outcome_performAll laterRepresents (Emission.operandScript
            draft.classDraft.config draft.method draft.classDraft.nodeTypes call.operand type)
          cases result : Emission.pushOperand call.operand type later with
          | error error last =>
              rw [result] at pushed
              rw [bind_of_eq_error result, bind_of_eq_error pushed.symm]
          | ok _ last =>
              rw [result] at pushed
              rw [bind_of_eq_ok result, bind_of_eq_ok pushed.symm]
              rw [← pushed] at outcome
              have longest := prefix_absorb later.classDraft.pool.limit held
                (needs (Emission.operandScript draft.classDraft.config draft.method
                  draft.classDraft.nodeTypes call.operand type))
              rw [performAll_invocations outcome.2.2.1.represents fun operation isOperation =>
                ⟨longest.subset (known operation isOperation),
                  fault?_of_prepared represents prepared isOperation⟩]
              rw [map_encode_of_longer longest known]

/-- Emitting a call continues the draft and extends the pool, whether it fails or not. -/
theorem NameCall.continues_emit {draft : Draft} {values : List ConstantValue}
    (represents : draft.classDraft.pool.Represents values) (call : NameCall) :
    ∃ held, values <+: held ∧ (leftBehind (call.emit draft)).Continues draft held := by
  rw [call.emit_eq_performAll represents]
  exact ⟨_, prefix_absorb _ _ _, continues_performAll represents _⟩

end NodeNames
