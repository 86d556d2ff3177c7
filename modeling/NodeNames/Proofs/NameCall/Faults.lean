import NodeNames.Proofs.MethodSignature
import NodeNames.Proofs.NameCall.Checking
import NodeNames.Proofs.NameCall.Emission
/-!
# Faults of calls

The code of a call asks the constant pool for a bounded number of constants,
since the invocations at its end have been prepared. The only fault of its own
that it has is an iterator class that breaks a descriptor.
-/

namespace NodeNames

open ConstantValue EmissionStep RuntimeOperation

namespace RuntimeOperation

variable {operation : RuntimeOperation} {config : Config}

theorem constant?_invocation (operation : RuntimeOperation) (config : Config) :
    (operation.invocation config).constant? = some (method (operation.reference config)) := by
  rw [invocation]
  cases operation.kind <;> rfl

theorem wanted_invocation (operation : RuntimeOperation) (config : Config) :
    (operation.invocation config).wanted =
      (method (operation.reference config)).constituents := by
  rw [DecodedInstruction.wanted, constant?_invocation]

theorem fault?_reference (plain : operation.Plain) (readable : operation.Readable config) :
    (method (operation.reference config)).fault? = none := by
  simp only [ConstantValue.fault?, reference, ofDescriptor_descriptor plain readable]

theorem fault?_reference_of_not_readable (plain : operation.Plain)
    (unreadable : ¬operation.Readable config) :
    (method (operation.reference config)).fault? =
      some (.malformedDescriptor (operation.descriptor config)) := by
  simp only [ConstantValue.fault?, reference,
    ofDescriptor_descriptor_of_not_readable plain unreadable]

theorem readable_of_fault? (plain : operation.Plain)
    (sound : (method (operation.reference config)).fault? = none) :
    operation.Readable config := by
  by_contra unreadable
  rw [fault?_reference_of_not_readable plain unreadable] at sound
  cases sound

theorem fault?_invocation (operation : RuntimeOperation) (config : Config) :
    (EmissionStep.append (operation.invocation config)).fault? =
      (method (operation.reference config)).fault? := by
  rw [EmissionStep.fault?, DecodedInstruction.fault?, constant?_invocation]
  rfl

end RuntimeOperation

namespace NameFunction

theorem result_of_mem_finalOperations {function : NameFunction} {operation : RuntimeOperation}
    (isFinal : operation ∈ function.finalOperations) :
    operation ∈ RuntimeOperation.all ∧ operation.result = .string := by
  revert isFinal
  cases function <;> revert operation <;> decide

theorem fault?_finalOperation {function : NameFunction} {operation : RuntimeOperation}
    (isFinal : operation ∈ function.finalOperations) (config : Config) :
    (method (operation.reference config)).fault? = none := by
  have final := result_of_mem_finalOperations isFinal
  apply fault?_reference (plain_of_mem_all operation final.1)
  intro isIterator
  rw [final.2] at isIterator
  cases isIterator

end NameFunction

/-- Whether the operand of a type is turned into a node by way of an iterator. -/
def ValueType.NeedsIterator (type : ValueType) : Prop :=
  type = .nodeSet ∨ type = .reference

namespace RuntimeOperation

variable {config : Config}

theorem length_wanted_invocation (operation : RuntimeOperation) :
    (EmissionStep.append (operation.invocation config)).wanted.length = 6 := by
  rw [EmissionStep.wanted, wanted_invocation]
  rfl

theorem firstFault?_preparations {operations : List RuntimeOperation}
    (sound : ∀ operation ∈ operations, (method (operation.reference config)).fault? = none) :
    firstFault? (preparations config operations) = none := by
  rw [firstFault?_eq_none_iff, preparations, List.forall_mem_map]
  exact sound

theorem firstFault?_invocations {operations : List RuntimeOperation}
    (sound : ∀ operation ∈ operations, (method (operation.reference config)).fault? = none) :
    firstFault? (invocations config operations) = none := by
  rw [firstFault?_eq_none_iff, invocations, List.forall_mem_map]
  intro operation isOperation
  rw [fault?_invocation]
  exact sound operation isOperation

/-- Invoking operations asks for what preparing them has asked for. -/
theorem needs_invocations {operations : List RuntimeOperation}
    (sound : ∀ operation ∈ operations, (method (operation.reference config)).fault? = none) :
    needs (invocations config operations) = needs (preparations config operations) := by
  rw [needs_of_sound (firstFault?_invocations sound),
    needs_of_sound (firstFault?_preparations sound), invocations, preparations,
    List.flatMap_map, List.flatMap_map]
  simp only [EmissionStep.wanted, wanted_invocation]

end RuntimeOperation

namespace EmissionStep

/-- How many constants some steps ask the pool for. -/
def cost (steps : List EmissionStep) : Nat :=
  (steps.flatMap wanted).length

@[simp] theorem cost_nil : cost [] = 0 := rfl

@[simp] theorem cost_cons (step : EmissionStep) (others : List EmissionStep) :
    cost (step :: others) = step.wanted.length + cost others := by
  simp [cost]

@[simp] theorem cost_append (first second : List EmissionStep) :
    cost (first ++ second) = cost first + cost second := by
  simp [cost]

theorem length_needs_le (steps : List EmissionStep) : (needs steps).length ≤ cost steps := by
  induction steps with
  | nil => simp [needs]
  | cons step others ih =>
      rw [needs]
      split
      · simp
      · simp only [List.length_append, cost_cons]
        omega

@[simp] theorem wanted_loadReference (slot : UInt16) :
    (append (.loadReference slot)).wanted = [] := rfl

@[simp] theorem wanted_loadInteger (slot : UInt16) :
    (append (.loadInteger slot)).wanted = [] := rfl

@[simp] theorem wanted_loadReal (slot : UInt16) : (append (.loadReal slot)).wanted = [] := rfl

@[simp] theorem wanted_register (key : String) : (register key).wanted = [] := rfl

theorem length_wanted_pushInteger_le (value : Int) :
    (append (.pushInteger value)).wanted.length ≤ 1 := by
  simp only [wanted, DecodedInstruction.wanted, DecodedInstruction.constant?]
  split_ifs <;> simp [constituents]

end EmissionStep

section Costs

variable {config : Config} {method : MethodDraft} {types : NodeTypes}

theorem cost_preparations_le (function : NameFunction) :
    cost (preparations config function.finalOperations) ≤ 12 := by
  cases function <;>
    simp [preparations, NameFunction.finalOperations, EmissionStep.wanted, constituents]

theorem Axis.wanted_id (axis : Axis) :
    (EmissionStep.append (.pushInteger axis.id)).wanted = [] := by
  cases axis <;> rfl

theorem cost_iteratorSteps_le (axis : Axis) (type : Option Nat) :
    cost (Emission.iteratorSteps config method axis type) ≤ 7 := by
  cases type with
  | none => simp [Emission.iteratorSteps, axis.wanted_id, length_wanted_invocation]
  | some type =>
      have short := length_wanted_pushInteger_le type
      simp only [Emission.iteratorSteps, cost_cons, cost_nil, axis.wanted_id,
        wanted_loadReference, length_wanted_invocation, List.length_nil]
      omega

theorem cost_script_le (expression : Expression) :
    cost (expression.script config method types) ≤ 7 := by
  cases expression with
  | contextNode => simp [Expression.script]
  | variableReference name =>
      rw [Expression.script, Emission.variableSteps]
      split
      · simp [EmissionStep.wanted]
      · split <;> simp [length_wanted_invocation]
  | step step =>
      have registered : cost step.registrations = 0 := by
        rw [Step.registrations]
        split <;> simp
      rw [Expression.script, cost_append, registered, Nat.zero_add]
      exact cost_iteratorSteps_le _ _
  | literal value =>
      simp [Expression.script, EmissionStep.wanted, DecodedInstruction.wanted,
        DecodedInstruction.constant?, constituents]

theorem cost_adaptScript_le (expression : Expression) (type : ValueType) :
    cost (expression.adaptScript config method type) ≤ 12 := by
  have started : cost (expression.startScript config method type) ≤ 6 := by
    unfold Expression.startScript
    split <;> simp [length_wanted_invocation]
  unfold Expression.adaptScript
  split
  · simp
  · simp [length_wanted_invocation]
  · simp only [cost_append, cost_cons, cost_nil, length_wanted_invocation]
    omega

theorem cost_operandScript_le (operand : Option Expression) (type : ValueType) :
    cost (Emission.operandScript config method types operand type) ≤ 19 := by
  cases operand with
  | none => simp [Emission.operandScript]
  | some expression =>
      have value := @cost_script_le config method types expression
      have adapted := @cost_adaptScript_le config method expression type
      simp only [Emission.operandScript, cost_cons, cost_append, wanted_loadReference,
        List.length_nil]
      omega

/-- A call needs room for at most thirty-one constants. -/
theorem NameCall.limit_lt_of_full {limit : Nat} {values : List ConstantValue} {call : NameCall}
    (full : (absorb limit values (needs (call.script config method types))).2 = false) :
    limit < values.length + 31 := by
  rw [script] at full
  split at full
  · simp [needs, EmissionStep.fault?, absorb] at full
  · next type _ =>
    rw [needs_append, if_pos (firstFault?_preparations fun _ isFinal =>
      NameFunction.fault?_finalOperation isFinal config), needs_append, ← List.append_assoc,
      absorb_append_of_subset] at full
    · have short := limit_lt_of_absorb full
      have prepared := length_needs_le (preparations config call.function.finalOperations)
      have pushed :=
        length_needs_le (Emission.operandScript config method types call.operand type)
      have preparedLe := @cost_preparations_le config call.function
      have pushedLe := @cost_operandScript_le config method types call.operand type
      rw [List.length_append] at short
      omega
    · intro value asked
      split_ifs at asked
      · rw [needs_invocations fun _ isFinal =>
          NameFunction.fault?_finalOperation isFinal config] at asked
        exact List.mem_append_left _ asked
      · simp at asked

/-- Emitting a call adds at most thirty-one constants, whether all of them find room or not. -/
theorem NameCall.length_absorb_le (limit : Nat) (values : List ConstantValue) (call : NameCall) :
    (absorb limit values (needs (call.script config method types))).1.length ≤
      values.length + 31 := by
  apply length_absorb_le_of_room (Nat.le_add_right _ _)
  cases room : (absorb (values.length + 31) values (needs (call.script config method types))).2 with
  | true => rfl
  | false => exact absurd (NameCall.limit_lt_of_full room) (Nat.lt_irrefl _)

end Costs

section Faults

variable {config : Config} {method : MethodDraft} {types : NodeTypes}

@[simp] theorem fault?_loadReference (slot : UInt16) :
    (EmissionStep.append (.loadReference slot)).fault? = none := rfl

@[simp] theorem fault?_loadInteger (slot : UInt16) :
    (EmissionStep.append (.loadInteger slot)).fault? = none := rfl

@[simp] theorem fault?_pushInteger (value : Int) :
    (EmissionStep.append (.pushInteger value)).fault? = none := by
  simp only [EmissionStep.fault?, DecodedInstruction.fault?, DecodedInstruction.constant?]
  split_ifs <;> rfl

theorem fault?_invocation_of_readable {operation : RuntimeOperation}
    (isOperation : operation ∈ RuntimeOperation.all) (readable : operation.Readable config) :
    (EmissionStep.append (operation.invocation config)).fault? = none := by
  rw [fault?_invocation]
  exact fault?_reference (plain_of_mem_all operation isOperation) readable

theorem fault?_invocation_of_unnamed (unnamed : ¬config.NamesIterator)
    {operation : RuntimeOperation} (isOperation : operation ∈ RuntimeOperation.all)
    (isIterator : operation.result = .nodeSet) :
    (EmissionStep.append (operation.invocation config)).fault? =
      some (.malformedDescriptor (operation.descriptor config)) := by
  rw [fault?_invocation]
  exact fault?_reference_of_not_readable (plain_of_mem_all operation isOperation)
    fun readable => unnamed (readable isIterator)

theorem firstFault?_registrations (step : Step) :
    firstFault? step.registrations = none := by
  unfold Step.registrations
  split <;> rfl

theorem firstFault?_operandScript_of_node {operand : Option Expression}
    (checked : CheckedOperand method operand .node) :
    firstFault? (Emission.operandScript config method types operand .node) = none := by
  cases checked with
  | absent => rfl
  | contextNode => rfl
  | nodeVariable declared =>
      simp [Emission.operandScript, Expression.script, Expression.adaptScript,
        Emission.variableSteps, declared]

/-- With an iterator class that can be named, the code of an operand has no fault. -/
theorem firstFault?_operandScript_of_names {operand : Option Expression} {type : ValueType}
    (names : config.NamesIterator) (checked : CheckedOperand method operand type) :
    firstFault? (Emission.operandScript config method types operand type) = none := by
  have sound {operation : RuntimeOperation} (isOperation : operation ∈ RuntimeOperation.all) :
      (EmissionStep.append (operation.invocation config)).fault? = none :=
    fault?_invocation_of_readable isOperation fun _ => names
  cases checked with
  | absent => rfl
  | contextNode => rfl
  | nodeVariable declared => exact firstFault?_operandScript_of_node (.nodeVariable declared)
  | nodeSetVariable declared =>
      have clone := sound (by decide : cloneIterator ∈ all)
      have next := sound (by decide : next ∈ all)
      simp [Emission.operandScript, Expression.script, Expression.adaptScript,
        Expression.startScript, Emission.variableSteps, declared, clone, next]
  | referenceVariable declared =>
      have convert := sound (by decide : referenceToNodeSet ∈ all)
      have next := sound (by decide : next ∈ all)
      simp [Emission.operandScript, Expression.script, Expression.adaptScript,
        Emission.variableSteps, declared, convert, next]
  | step step =>
      have untyped := sound (by decide : getAxisIterator ∈ all)
      have typed := sound (by decide : getTypedAxisIterator ∈ all)
      have start := sound (by decide : setStartNode ∈ all)
      have next := sound (by decide : next ∈ all)
      cases test : step.typeIn? types <;>
        simp [Emission.operandScript, Expression.script, Expression.adaptScript,
          Expression.startScript, Emission.iteratorSteps, test, firstFault?_registrations, untyped,
          typed, start, next]

/-- With an iterator class that cannot be named, the first iterator breaks the code. -/
theorem firstFault?_operandScript_of_unnamed {operand : Option Expression} {type : ValueType}
    (unnamed : ¬config.NamesIterator) (iterates : type.NeedsIterator)
    (checked : CheckedOperand method operand type) :
    ∃ descriptor, firstFault? (Emission.operandScript config method types operand type) =
      some (.malformedDescriptor descriptor) := by
  have broken {operation : RuntimeOperation} (isOperation : operation ∈ RuntimeOperation.all)
      (isIterator : operation.result = .nodeSet) :
      (EmissionStep.append (operation.invocation config)).fault? =
        some (.malformedDescriptor (operation.descriptor config)) :=
    fault?_invocation_of_unnamed unnamed isOperation isIterator
  cases checked with
  | absent => rcases iterates with isNodeSet | isReference <;> contradiction
  | contextNode => rcases iterates with isNodeSet | isReference <;> contradiction
  | nodeVariable declared => rcases iterates with isNodeSet | isReference <;> contradiction
  | nodeSetVariable declared =>
      have clone := broken (by decide : cloneIterator ∈ all) rfl
      simp [Emission.operandScript, Expression.script, Emission.variableSteps, declared, clone]
  | referenceVariable declared =>
      have convert := broken (by decide : referenceToNodeSet ∈ all) rfl
      simp [Emission.operandScript, Expression.script, Expression.adaptScript,
        Emission.variableSteps, declared, convert]
  | step step =>
      have untyped := broken (by decide : getAxisIterator ∈ all) rfl
      have typed := broken (by decide : getTypedAxisIterator ∈ all) rfl
      cases test : step.typeIn? types <;>
        simp [Emission.operandScript, Expression.script, Emission.iteratorSteps, test,
          firstFault?_registrations, untyped, typed]

theorem firstFault?_operandScript {operand : Option Expression} {type : ValueType}
    (names : type.NeedsIterator → config.NamesIterator)
    (checked : CheckedOperand method operand type) :
    firstFault? (Emission.operandScript config method types operand type) = none := by
  cases checked with
  | absent => exact firstFault?_operandScript_of_node .absent
  | contextNode => exact firstFault?_operandScript_of_node .contextNode
  | nodeVariable declared => exact firstFault?_operandScript_of_node (.nodeVariable declared)
  | nodeSetVariable declared =>
      exact firstFault?_operandScript_of_names (names (.inl rfl)) (.nodeSetVariable declared)
  | referenceVariable declared =>
      exact firstFault?_operandScript_of_names (names (.inr rfl)) (.referenceVariable declared)
  | step step => exact firstFault?_operandScript_of_names (names (.inl rfl)) (.step step)

namespace NameCall

variable {call : NameCall} {type : ValueType}

theorem firstFault?_script (known : call.operandType = some type) :
    firstFault? (call.script config method types) =
      firstFault? (Emission.operandScript config method types call.operand type) := by
  have sound {operation : RuntimeOperation}
      (isFinal : operation ∈ call.function.finalOperations) :=
    NameFunction.fault?_finalOperation isFinal config
  rw [script, known]
  simp [firstFault?_preparations fun _ => sound, firstFault?_invocations fun _ => sound]

end NameCall

end Faults

end NodeNames
