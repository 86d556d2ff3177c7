import NodeNames.NameCall.Emission
import NodeNames.Proofs.Emission.Step
/-!
# Emission scripts

What is emitted for an expression or a call depends on the drafts only through
the configuration, the variables and the reserved slots of the method. It is
written down here as a script of few kinds of steps, and emission is shown to
perform that script. What holds of every step then holds of all emission.
-/

namespace NodeNames

/-- The key under which a name is registered along an axis. -/
def NodeTypes.keyOf (axis : Axis) (name : QName) : String :=
  if axis = .attributeAxis then "@" ++ name.typeKey else name.typeKey

/-- The type of a key, which is the next free one for a new key. -/
def NodeTypes.typeOf (types : NodeTypes) (key : String) : Nat :=
  (types.register key).1

/-- The instruction that invokes an operation, decoded. -/
def RuntimeOperation.invocation (operation : RuntimeOperation) (config : Config) :
    DecodedInstruction :=
  match operation.kind with
  | .ofInterface => .invokeInterface (operation.reference config) operation.interfaceCount
  | .ofClass => .invokeStatic (operation.reference config)

open EmissionStep

def Emission.variableSteps (config : Config) (method : MethodDraft) (name : QName) :
    List EmissionStep :=
  match method.local? name with
  | none => [.fail (.undeclaredVariable name)]
  | some declared =>
      match declared.type with
      | .node | .int | .boolean => [.append (.loadInteger declared.slot)]
      | .real => [.append (.loadReal declared.slot)]
      | .reference | .string | .void => [.append (.loadReference declared.slot)]
      | .nodeSet =>
          [.append (.loadReference declared.slot),
            .append (RuntimeOperation.cloneIterator.invocation config)]

/-- The script for an iterator over the nodes of a type on an axis, or over all its nodes. -/
def Emission.iteratorSteps (config : Config) (method : MethodDraft) (axis : Axis) :
    Option Nat → List EmissionStep
  | none =>
      [.append (.loadReference method.documentSlot), .append (.pushInteger axis.id),
        .append (RuntimeOperation.getAxisIterator.invocation config)]
  | some type =>
      [.append (.loadReference method.documentSlot), .append (.pushInteger axis.id),
        .append (.pushInteger type),
        .append (RuntimeOperation.getTypedAxisIterator.invocation config)]

/-- Unnamed nodes have types below those of named ones. -/
theorem NodeKind.typeId_lt (kind : NodeKind) : kind.typeId < firstNamedType := by
  cases kind <;> decide

namespace Step

/-- The steps that make the type for a test known. -/
def registrations (step : Step) : List EmissionStep :=
  match step.test with
  | .name name => [.register (NodeTypes.keyOf step.axis name)]
  | .anyNode | .kind _ | .wildcard => []

/-- The type of the nodes that pass the test, given the types before the step. -/
def typeIn? (step : Step) (types : NodeTypes) : Option Nat :=
  match step.test with
  | .anyNode => none
  | .kind kind => some kind.typeId
  | .wildcard => some step.axis.principalKind.typeId
  | .name name => some (types.typeOf (NodeTypes.keyOf step.axis name))

end Step

namespace Expression

def script (config : Config) (method : MethodDraft) (types : NodeTypes) :
    Expression → List EmissionStep
  | contextNode => [.append (.loadInteger method.contextNodeSlot)]
  | variableReference name => Emission.variableSteps config method name
  | step selected =>
      selected.registrations ++
        Emission.iteratorSteps config method selected.axis (selected.typeIn? types)
  | literal value => [.append (.pushText value)]

def startScript (config : Config) (method : MethodDraft) (expression : Expression)
    (type : ValueType) : List EmissionStep :=
  match type, expression with
  | .nodeSet, variableReference _ => []
  | .nodeSet, _ =>
      [.append (.loadInteger method.contextNodeSlot),
        .append (RuntimeOperation.setStartNode.invocation config)]
  | _, _ => []

/-- The script that turns the value of an expression of some type into a node. -/
def adaptScript (config : Config) (method : MethodDraft) (expression : Expression) :
    ValueType → List EmissionStep
  | .node => []
  | .reference =>
      [.append (RuntimeOperation.referenceToNodeSet.invocation config),
        .append (RuntimeOperation.next.invocation config)]
  | type =>
      expression.startScript config method type ++
        [.append (RuntimeOperation.next.invocation config)]

end Expression

/-- The script for the document and the node that a function works on. -/
def Emission.operandScript (config : Config) (method : MethodDraft) (types : NodeTypes)
    (operand : Option Expression) (type : ValueType) : List EmissionStep :=
  .append (.loadReference method.documentSlot) ::
    match operand with
    | none => [.append (.loadInteger method.contextNodeSlot)]
    | some expression =>
        expression.script config method types ++ expression.adaptScript config method type

/-- Methods that have the document, the context node and the variables in the same slots. -/
structure MethodDraft.SameSlots (first second : MethodDraft) : Prop where
  documentSlot : first.documentSlot = second.documentSlot
  contextNodeSlot : first.contextNodeSlot = second.contextNodeSlot
  local? : ∀ name, first.local? name = second.local? name

theorem MethodDraft.SameSlots.of_frame {first second : MethodDraft}
    (same : first.frame = second.frame) : first.SameSlots second where
  documentSlot := by simpa only [frame] using congrArg MethodDraft.documentSlot same
  contextNodeSlot := by simpa only [frame] using congrArg MethodDraft.contextNodeSlot same
  local? name := by
    have sameLocals := congrArg MethodDraft.locals same
    simp only [frame] at sameLocals
    simp only [MethodDraft.local?, sameLocals]

theorem Expression.script_congr {first second : MethodDraft} (same : first.SameSlots second)
    (config : Config) (types : NodeTypes) (expression : Expression) :
    expression.script config first types = expression.script config second types := by
  cases expression with
  | contextNode => simp only [script, same.contextNodeSlot]
  | variableReference name => simp only [script, Emission.variableSteps, same.local?]
  | step selected => simp only [script, Emission.iteratorSteps, same.documentSlot]
  | literal value => rfl

theorem Expression.adaptScript_congr {first second : MethodDraft} (same : first.SameSlots second)
    (config : Config) (expression : Expression) (type : ValueType) :
    expression.adaptScript config first type = expression.adaptScript config second type := by
  cases type <;> simp only [adaptScript, startScript, same.contextNodeSlot]

/-- What is emitted for an operand depends on the slots of the method only. -/
theorem Emission.operandScript_congr {first second : MethodDraft} (same : first.SameSlots second)
    (config : Config) (types : NodeTypes) (operand : Option Expression) (type : ValueType) :
    operandScript config first types operand type =
      operandScript config second types operand type := by
  cases operand with
  | none => simp only [operandScript, same.documentSlot, same.contextNodeSlot]
  | some expression =>
      simp only [operandScript, same.documentSlot, expression.script_congr same,
        expression.adaptScript_congr same]

/-- A draft in which an expression is emitted by the script for given settings. -/
structure Draft.Fits (draft : Draft) (config : Config) (method : MethodDraft)
    (types : NodeTypes) : Prop where
  config : draft.classDraft.config = config
  frame : draft.method.frame = method.frame
  types : draft.classDraft.nodeTypes = types

/-- An action does what a script says in every draft that fits. -/
def Emission.Performs (config : Config) (method : MethodDraft) (types : NodeTypes)
    (action : Emission Unit) (script : List EmissionStep) : Prop :=
  ∀ draft : Draft, draft.Fits config method types → action draft = performAll script draft

theorem EmissionStep.performAll_append (first second : List EmissionStep) :
    performAll (first ++ second) = (do performAll first; performAll second) := by
  induction first with
  | nil => simp [performAll]
  | cons step others ih => simp [performAll, ih]

theorem EmissionStep.performAll_singleton (step : EmissionStep) :
    performAll [step] = step.perform := by
  simp [performAll]

variable {config : Config} {method : MethodDraft} {types : NodeTypes} {draft later : Draft}

theorem EmissionStep.fits_perform {step : EmissionStep} (fits : draft.Fits config method types)
    (succeeds : step.perform draft = .ok () later) :
    later.Fits config method (step.typesAfter types) := by
  rcases fits with ⟨rfl, frame, rfl⟩
  cases step with
  | fail error => cases succeeds
  | register key =>
      cases succeeds
      exact ⟨rfl, frame, rfl⟩
  | prepare reference | append instruction =>
      rcases exists_of_bind_eq_ok succeeds with ⟨_, between, added, rest⟩
      rcases Emission.exists_of_onPool_eq_ok added with ⟨pool, _, rfl⟩
      cases rest
      exact ⟨rfl, frame, rfl⟩

theorem EmissionStep.fits_performAll {script : List EmissionStep}
    (fits : draft.Fits config method types) (succeeds : performAll script draft = .ok () later) :
    later.Fits config method (script.foldl typesAfter types) := by
  induction script generalizing draft types with
  | nil =>
      cases succeeds
      exact fits
  | cons step others ih =>
      rcases exists_of_bind_eq_ok succeeds with ⟨_, next, performed, rest⟩
      exact ih (fits_perform fits performed) rest

namespace Emission

theorem performs_bind {first second : Emission Unit} {script others : List EmissionStep}
    (performsFirst : Performs config method types first script)
    (performsSecond : Performs config method (script.foldl typesAfter types) second others) :
    Performs config method types (do first; second) (script ++ others) := by
  intro draft fits
  rw [performAll_append]
  have same := performsFirst draft fits
  cases result : performAll script draft with
  | ok _ later =>
      rw [result] at same
      rw [bind_of_eq_ok result, bind_of_eq_ok same]
      exact performsSecond later (fits_performAll fits result)
  | error error later =>
      rw [result] at same
      rw [bind_of_eq_error result, bind_of_eq_error same]

theorem performs_cons {first second : Emission Unit} {step : EmissionStep}
    {others : List EmissionStep} (performsFirst : Performs config method types first [step])
    (performsSecond : Performs config method (step.typesAfter types) second others) :
    Performs config method types (do first; second) (step :: others) :=
  performs_bind performsFirst performsSecond

theorem performs_nil : Performs config method types (return ()) [] :=
  fun _ _ => rfl

theorem performs_perform (step : EmissionStep) :
    Performs config method types step.perform [step] := by
  intro draft fits
  rw [performAll_singleton]

theorem performs_append (instruction : DecodedInstruction) (short : instruction.constant? = none) :
    Performs config method types (append (instruction.encode fun _ => 0))
      [.append instruction] := by
  intro draft fits
  rw [performAll_singleton, perform, DecodedInstruction.assemble, short]
  rfl

theorem performs_loadDocument {next : Emission Unit} {others : List EmissionStep}
    (performsNext : Performs config method types next others) :
    Performs config method types (do append (← loadDocument); next)
      (.append (.loadReference method.documentSlot) :: others) := by
  intro draft fits
  have sameSlot := congrArg MethodDraft.documentSlot fits.frame
  simp only [MethodDraft.frame] at sameSlot
  rw [← performs_cons (performs_append _ rfl) performsNext draft fits, ← sameSlot]
  rfl

theorem performs_loadContextNode {next : Emission Unit} {others : List EmissionStep}
    (performsNext : Performs config method types next others) :
    Performs config method types (do append (← loadContextNode); next)
      (.append (.loadInteger method.contextNodeSlot) :: others) := by
  intro draft fits
  have sameSlot := congrArg MethodDraft.contextNodeSlot fits.frame
  simp only [MethodDraft.frame] at sameSlot
  rw [← performs_cons (performs_append _ rfl) performsNext draft fits, ← sameSlot]
  rfl

theorem push_eq_assemble (value : Int) :
    Instruction.push value = (DecodedInstruction.pushInteger value).assemble := by
  simp only [Instruction.push, DecodedInstruction.assemble, DecodedInstruction.constant?,
    DecodedInstruction.encode]
  by_cases short : -32768 ≤ value ∧ value ≤ 32767
  · simp only [if_pos short]
    split_ifs <;> rfl
  · have notByte : ¬(-128 ≤ value ∧ value ≤ 127) := by omega
    have notTiny : ¬(-1 ≤ value ∧ value ≤ 5) := by omega
    simp only [if_neg short, if_neg notByte, if_neg notTiny, ConstantValue.add]

theorem performs_push (value : Int) :
    Performs config method types (push value) [.append (.pushInteger value)] := by
  intro draft fits
  rw [performAll_singleton, push, push_eq_assemble]
  rfl

theorem assemble_invocation (operation : RuntimeOperation) (config : Config) :
    (operation.invocation config).assemble = (do
      return operation.invoke
        (← ConstantPool.addMethodReference (operation.reference config))) := by
  rw [RuntimeOperation.invocation]
  simp only [RuntimeOperation.invoke]
  cases operation.kind <;> rfl

theorem onPool_map {First Second : Type} (convert : First → Second) (action : PoolAction First) :
    onPool (do return convert (← action)) = (do return convert (← onPool action)) := by
  funext draft
  cases result : action draft.classDraft.pool with
  | ok answer pool =>
      rw [bind_of_eq_ok (onPool_of_eq_ok result)]
      exact onPool_of_eq_ok (bind_of_eq_ok result)
  | error error pool =>
      rw [bind_of_eq_error (onPool_of_eq_error result)]
      exact onPool_of_eq_error (bind_of_eq_error result)

theorem performs_emit (operation : RuntimeOperation) :
    Performs config method types operation.emit [.append (operation.invocation config)] := by
  intro draft fits
  rw [performAll_singleton, perform, assemble_invocation, onPool_map, ← fits.config]
  simp only [RuntimeOperation.emit, RuntimeOperation.emitIndexed, RuntimeOperation.intern,
    Emission.config, bind_assoc, pure_bind]
  rfl

theorem performs_pushVariable (name : QName) :
    Performs config method types (pushVariable name) (variableSteps config method name) := by
  intro draft fits
  have sameLocals := congrArg MethodDraft.locals fits.frame
  simp only [MethodDraft.frame] at sameLocals
  have found : draft.method.local? name = method.local? name := by
    rw [MethodDraft.local?, MethodDraft.local?, sameLocals]
  rw [pushVariable, variableSteps, bind_get, found]
  cases method.local? name with
  | none => rfl
  | some declared =>
      rcases declared with ⟨slot, type⟩
      cases type with
      | node | int | boolean => exact performs_append (.loadInteger slot) rfl draft fits
      | real => exact performs_append (.loadReal slot) rfl draft fits
      | reference | string | void => exact performs_append (.loadReference slot) rfl draft fits
      | nodeSet =>
          exact performs_cons (performs_append (.loadReference slot) rfl) (performs_emit _)
            draft fits

theorem registerName_eq (axis : Axis) (name : QName) :
    registerName axis name = (do
      let type := (← get).classDraft.nodeTypes.typeOf (NodeTypes.keyOf axis name)
      (EmissionStep.register (NodeTypes.keyOf axis name)).perform
      return type) := by
  funext draft
  rw [registerName, NodeTypes.keyOf]
  split_ifs <;> rfl

theorem performs_iteratorSteps (axis : Axis) (type : Option Nat) :
    Performs config method types
      (do
        append (← loadDocument)
        push axis.id
        match type with
        | some type =>
            push type
            RuntimeOperation.getTypedAxisIterator.emit
        | none => RuntimeOperation.getAxisIterator.emit)
      (iteratorSteps config method axis type) := by
  cases type with
  | none =>
      exact performs_loadDocument (performs_cons (performs_push _) (performs_emit _))
  | some type =>
      exact performs_loadDocument (performs_cons (performs_push _)
        (performs_cons (performs_push _) (performs_emit _)))

theorem performs_pushStep (step : Step) :
    Performs config method types (pushStep step)
      (step.registrations ++ iteratorSteps config method step.axis (step.typeIn? types)) := by
  rcases step with ⟨axis, test⟩
  cases test with
  | anyNode => exact performs_iteratorSteps axis none
  | kind kind => exact performs_iteratorSteps axis (some kind.typeId)
  | wildcard => exact performs_iteratorSteps axis (some axis.principalKind.typeId)
  | name name =>
      intro draft fits
      have performed := performs_bind
        (performs_perform (.register (NodeTypes.keyOf axis name)))
        (performs_iteratorSteps axis (some (types.typeOf (NodeTypes.keyOf axis name)))) draft fits
      rw [Step.registrations, Step.typeIn?, ← performed, pushStep, Step.nodeType?]
      simp only [registerName_eq, bind_assoc, pure_bind, bind_get, fits.types]

end Emission

namespace Expression

open Emission

theorem performs_emit (expression : Expression) :
    Performs config method types expression.emit (expression.script config method types) := by
  cases expression with
  | contextNode =>
      rw [emit, script]
      simpa only [bind_pure_unit] using performs_loadContextNode performs_nil
  | variableReference name => exact performs_pushVariable name
  | step step => exact performs_pushStep step
  | literal value =>
      intro draft fits
      rw [script, performAll_singleton]
      have assembled : (DecodedInstruction.pushText value).assemble =
          (do return Instruction.load (← ConstantPool.addString value)) := rfl
      rw [perform, assembled, onPool_map]
      simp only [emit, bind_assoc, pure_bind]

theorem performs_startIterator (expression : Expression) (type : ValueType) :
    Performs config method types (expression.startIterator type)
      (expression.startScript config method type) := by
  cases type with
  | nodeSet =>
      cases expression with
      | variableReference name => exact performs_nil
      | contextNode | step step | literal value =>
          exact performs_loadContextNode (Emission.performs_emit _)
  | _ => cases expression <;> exact performs_nil

end Expression

namespace Emission

theorem performs_pushOperand (operand : Option Expression) (type : ValueType) :
    Performs config method types (pushOperand operand type)
      (operandScript config method types operand type) := by
  apply performs_loadDocument
  cases operand with
  | none => simpa only [bind_pure_unit] using performs_loadContextNode performs_nil
  | some expression =>
      apply performs_bind expression.performs_emit
      cases type with
      | node => exact performs_nil
      | reference => exact performs_cons (performs_emit _) (performs_emit _)
      | nodeSet | string | boolean | int | real | void =>
          exact performs_bind (expression.performs_startIterator _) (performs_emit _)

end Emission

end NodeNames
