import NodeNames.Proofs.Code.Encodable
import NodeNames.Proofs.NameCall.StackEffect
import NodeNames.Proofs.NameCall.Steps
import NodeNames.Proofs.Unit.Layout
/-!
# Encodable emission

Whatever is done to a class and a method while code is generated, and whichever
of it fails half way, the code of the method can be written to a class file. It
is enough that every step of emission appends a proper instruction or none.
-/

namespace NodeNames

open ConstantValue EmissionStep RuntimeOperation

/-- An operation is invoked in the way and with the count that its descriptor asks for. -/
theorem RuntimeOperation.proper_invocation {operation : RuntimeOperation} {config : Config}
    (isOperation : operation ∈ all)
    (sound : (EmissionStep.append (operation.invocation config)).fault? = none) :
    (operation.invocation config).Proper := by
  have effective := effect?_invocation isOperation sound
  refine ⟨by simp [effective], ?_⟩
  intro name isPush
  rw [invocation] at isPush
  cases kind : operation.kind <;> simp [kind] at isPush

/-- A regular step appends a proper instruction or none, unless it has a fault. -/
theorem EmissionStep.Regular.proper {config : Config} {prepared : List RuntimeOperation}
    {step : EmissionStep} (regular : step.Regular config prepared) (sound : step.fault? = none)
    {instruction : DecodedInstruction} (isInstruction : step.instruction? = some instruction) :
    instruction.Proper := by
  cases regular with
  | fail error | register key | prepare isPrepared => cases isInstruction
  | loadReference slot | loadInteger slot | loadReal slot | pushInteger value | pushText text =>
      cases isInstruction
      exact ⟨by simp [DecodedInstruction.effect?], by simp⟩
  | invoke isOperation =>
      cases isInstruction
      exact proper_invocation isOperation sound

/-- A draft with given constants whose code is encodable. -/
structure Draft.Writable (draft : Draft) (values : List ConstantValue) : Prop where
  represents : draft.classDraft.pool.Represents values
  capacity : draft.classDraft.pool.limit ≤ poolCapacity
  code : Code.Encodable draft.classDraft.pool draft.method.code

namespace EmissionStep

variable {draft later : Draft} {values : List ConstantValue} {step : EmissionStep}
  {config : Config} {prepared : List RuntimeOperation}

theorem method_of_perform_error {error : CompileError}
    (fails : step.perform draft = .error error later) : later.method = draft.method := by
  cases step with
  | fail cause =>
      cases fails
      rfl
  | register key => cases fails
  | prepare reference =>
      rw [perform] at fails
      cases result : ConstantPool.addMethodReference reference draft.classDraft.pool with
      | ok index pool =>
          rw [bind_of_eq_ok (Emission.onPool_of_eq_ok result)] at fails
          cases fails
      | error refusal pool =>
          rw [bind_of_eq_error (Emission.onPool_of_eq_error result)] at fails
          cases fails
          rfl
  | append instruction =>
      rw [perform] at fails
      cases result : instruction.assemble draft.classDraft.pool with
      | ok encoded pool =>
          rw [bind_of_eq_ok (Emission.onPool_of_eq_ok result)] at fails
          cases fails
      | error refusal pool =>
          rw [bind_of_eq_error (Emission.onPool_of_eq_error result)] at fails
          cases fails
          rfl

/-- A regular step keeps the code encodable, whether it succeeds or fails. -/
theorem writable_perform (writable : draft.Writable values)
    (regular : step.Regular config prepared) :
    ∃ held, (leftBehind (step.perform draft)).Writable held := by
  cases faulty : step.fault? with
  | some error =>
      rw [perform_of_fault faulty]
      exact ⟨values, writable⟩
  | none =>
      have longer := prefix_absorb draft.classDraft.pool.limit values step.wanted
      have outcome := outcome_perform writable.represents faulty
      cases result : step.perform draft with
      | error error later =>
          rw [result] at outcome
          -- the constants that were added before the failure stay
          have continues := outcome.1
          refine ⟨_, continues.represents, continues.limit ▸ writable.capacity, ?_⟩
          rw [leftBehind, method_of_perform_error result]
          exact writable.code.of_longer writable.represents continues.represents longer
      | ok _ later =>
          rw [result] at outcome
          rcases outcome with ⟨_, _, continues, code, known, _⟩
          have capacity : later.classDraft.pool.limit ≤ poolCapacity :=
            continues.limit ▸ writable.capacity
          refine ⟨_, continues.represents, capacity, ?_⟩
          rw [leftBehind, code]
          intro instruction isInstruction
          rcases List.mem_append.mp isInstruction with old | new
          · exact (writable.code instruction old).of_longer writable.represents
              continues.represents longer
          · rcases List.mem_map.mp new with ⟨decoded, isAdded, rfl⟩
            exact decoded.encodable_encode continues.represents capacity
              (regular.proper faulty (by simpa using isAdded)) (known decoded isAdded)

/-- Regular steps keep the code encodable, up to the first failure and with what it leaves. -/
theorem writable_performAll (writable : draft.Writable values) {steps : List EmissionStep}
    (regular : ∀ step ∈ steps, step.Regular config prepared) :
    ∃ held, (leftBehind (performAll steps draft)).Writable held := by
  induction steps generalizing draft values with
  | nil => exact ⟨values, writable⟩
  | cons step others ih =>
      rcases writable_perform writable (regular step (by simp)) with ⟨held, stepWritable⟩
      rw [performAll]
      cases result : step.perform draft with
      | error error later =>
          rw [result] at stepWritable
          rw [bind_of_eq_error result]
          exact ⟨held, stepWritable⟩
      | ok _ later =>
          rw [result] at stepWritable
          rw [bind_of_eq_ok result]
          exact ih stepWritable fun other isOther => regular other (by simp [isOther])

end EmissionStep

/-- What can be done to a class and a method while code is generated. -/
inductive DraftAction where
  | addConstant (value : ConstantValue)
  | registerElement (name : QName)
  | registerAttribute (name : QName)
  | addLocal (name : QName) (type : ValueType)
  | emitExpression (expression : Expression)
  | startIterator (expression : Expression) (type : ValueType)
  | pushOperand (operand : Option Expression) (type : ValueType)
  | emitCall (call : NameCall)

def Draft.withNodeTypes (draft : Draft) (nodeTypes : NodeTypes) : Draft :=
  { draft with classDraft := { draft.classDraft with nodeTypes } }

namespace DraftAction

/-- What an action leaves behind, whether it succeeds or fails. -/
def perform (draft : Draft) : DraftAction → Draft
  | addConstant value =>
      { draft with classDraft :=
        { draft.classDraft with pool := addTo draft.classDraft.pool value } }
  | registerElement name =>
      draft.withNodeTypes (draft.classDraft.nodeTypes.registerElement name).2
  | registerAttribute name =>
      draft.withNodeTypes (draft.classDraft.nodeTypes.registerAttribute name).2
  | addLocal name type =>
      { draft with method := leftBehind (MethodDraft.addLocal name type draft.method) }
  | emitExpression expression => leftBehind (expression.emit draft)
  | startIterator expression type => leftBehind (expression.startIterator type draft)
  | pushOperand operand type => leftBehind (Emission.pushOperand operand type draft)
  | emitCall call => leftBehind (call.emit draft)

variable {draft : Draft} {values : List ConstantValue}

/-- Every action keeps the code encodable. -/
theorem writable_perform (writable : draft.Writable values) (action : DraftAction) :
    ∃ held, (action.perform draft).Writable held := by
  have fits : draft.Fits draft.classDraft.config draft.method draft.classDraft.nodeTypes :=
    ⟨rfl, rfl, rfl⟩
  cases action with
  | addConstant value =>
      rcases ConstantPool.represents_addTo writable.represents value with
        ⟨sameLimit, held, longer, represents⟩
      exact ⟨held, represents, sameLimit ▸ writable.capacity,
        writable.code.of_longer writable.represents represents longer⟩
  | registerElement name | registerAttribute name =>
      exact ⟨values, writable.represents, writable.capacity, writable.code⟩
  | addLocal name type =>
      refine ⟨values, writable.represents, writable.capacity, ?_⟩
      rw [perform, (draft.method.widens_addLocal name type).code]
      exact writable.code
  | emitExpression expression =>
      rw [perform, expression.performs_emit draft fits]
      exact writable_performAll writable (expression.regular_script [])
  | startIterator expression type =>
      rw [perform, expression.performs_startIterator type draft fits]
      exact writable_performAll writable (expression.regular_startScript [] type)
  | pushOperand operand type =>
      rw [perform, Emission.performs_pushOperand operand type draft fits]
      exact writable_performAll writable (Emission.regular_operandScript [] operand type)
  | emitCall call =>
      rw [perform, call.emit_eq_performAll writable.represents]
      exact writable_performAll writable call.regular_script

end DraftAction

namespace Draft

/-- A new class and a method of it without code, which may have a slot layout of its own. -/
def new (className methodName : String) (config layout : Config) : Draft :=
  { classDraft := ClassDraft.new className config
    method := MethodDraft.new methodName layout }

def after (draft : Draft) (actions : List DraftAction) : Draft :=
  actions.foldl DraftAction.perform draft

theorem writable_new (className methodName : String) (config layout : Config) :
    (new className methodName config layout).Writable [] where
  represents := ConstantPool.represents_withLimit config.maxPoolEntries
  capacity := Nat.min_le_right _ _
  code := nofun

theorem writable_after {draft : Draft} {values : List ConstantValue}
    (writable : draft.Writable values) (actions : List DraftAction) :
    ∃ held, (draft.after actions).Writable held := by
  induction actions generalizing draft values with
  | nil => exact ⟨values, writable⟩
  | cons action others ih =>
      rcases action.writable_perform writable with ⟨held, next⟩
      exact ih next

/--
After any actions on a new class and a new method, failing ones included, the code of the method is
encodable with the constants of the class, and it stays encodable whatever is added to them.
-/
theorem encodable_after (className methodName : String) (config layout : Config)
    (actions : List DraftAction) :
    let draft := (new className methodName config layout).after actions
    Code.Encodable draft.classDraft.pool draft.method.code ∧
      ∀ further, Code.Encodable (addAll draft.classDraft.pool further) draft.method.code := by
  intro draft
  rcases writable_after (writable_new className methodName config layout) actions with
    ⟨values, writable⟩
  refine ⟨writable.code, ?_⟩
  intro further
  rcases ConstantPool.represents_addAll writable.represents further with ⟨_, held, longer, grown⟩
  exact writable.code.of_longer writable.represents grown longer

/-- A text and the part of a step that is emitted before the pool gets full. -/
theorem encodable_after_exhaustion :
    let draft := (new "A" "m" { maxPoolEntries := 2 } {}).after
      [.emitExpression (.literal "a"), .emitExpression (.step ⟨.child, .anyNode⟩)]
    draft.method.code = [.ldc 2, .aload 1, .iconst 3] ∧
      Code.Encodable (addAll draft.classDraft.pool [utf8 "b"]) draft.method.code :=
  ⟨by decide +kernel, (encodable_after "A" "m" { maxPoolEntries := 2 } {} _).2 [utf8 "b"]⟩

end Draft

end NodeNames
