import NodeNames.Proofs.Machine.Execution
import NodeNames.Proofs.NameCall.Faults
/-!
# The meaning of calls

What a call stands for on a machine, said without code: the operations of the
function applied to the document and to the node that the operand stands for.
The code of a call leaves this value on the stack and nothing else.
-/

namespace NodeNames

open ConstantValue EmissionStep RuntimeOperation

/--
The type of the nodes that a step selects, or none inside for nodes of any type, given the names
that are registered. A name that is not among them has no type, and the step has no meaning.
-/
def Step.typeId? (step : Step) (names : List String) : Option (Option Nat) :=
  match step.test with
  | .anyNode => some none
  | .kind kind => some (some kind.typeId)
  | .wildcard => some (some step.axis.principalKind.typeId)
  | .name name =>
      (names.idxOf? (NodeTypes.keyOf step.axis name)).map fun place => some (firstNamedType + place)

namespace Machine

variable {Value : Type}

/-- The result of an operation for a receiver, if it has one, and arguments. -/
def apply (machine : Machine Value) (config : Config) (operation : RuntimeOperation)
    (arguments : List Value) : Option Value :=
  if machine.accepts (operation.reference config) (operation.signature config) arguments = true then
    (operation.signature config).result.map fun type =>
      machine.result (operation.reference config) type arguments
  else none

/-- The value of a variable; a node-set is an iterator, which is copied. -/
def variableValue? (machine : Machine Value) (config : Config) (declared : LocalVariable) :
    Option Value :=
  match declared.type with
  | .node | .int | .boolean => machine.loadInteger declared.slot
  | .real => machine.loadReal declared.slot
  | .reference | .string | .void => machine.loadReference declared.slot
  | .nodeSet => do machine.apply config cloneIterator [← machine.loadReference declared.slot]

/-- An iterator over the nodes of some type on an axis of the document, or over all its nodes. -/
def iterator? (machine : Machine Value) (config : Config) (axis : Axis) :
    Option Nat → Option Value
  | none => do
      let document ← machine.loadReference config.domSlot
      machine.apply config getAxisIterator [document, machine.integer axis.id]
  | some type => do
      let document ← machine.loadReference config.domSlot
      machine.apply config getTypedAxisIterator
        [document, machine.integer axis.id, machine.integer type]

end Machine

section Meaning

variable {Value : Type} (machine : Machine Value) (config : Config)
  (place? : QName → Option LocalVariable) (names : List String)

def Expression.value? : Expression → Option Value
  | contextNode => machine.loadInteger config.contextNodeSlot
  | variableReference name => (place? name).bind (machine.variableValue? config)
  | step selected => do machine.iterator? config selected.axis (← selected.typeId? names)
  | literal value => some (machine.text value)

/--
The node that the value of an expression stands for: a node itself, the first node of an iterator,
or that of the iterator that a reference turns out to be. An iterator that does not come from a
variable is started at the context node.
-/
def Expression.nodeOf? (expression : Expression) (type : ValueType) (value : Value) :
    Option Value :=
  match type, expression with
  | .node, _ => some value
  | .reference, _ => do
      machine.apply config next [← machine.apply config referenceToNodeSet [value]]
  | _, variableReference _ => machine.apply config next [value]
  | _, _ => do
      let context ← machine.loadInteger config.contextNodeSlot
      machine.apply config next [← machine.apply config setStartNode [value, context]]

/-- The node that an operand stands for; no operand stands for the context node. -/
def operandNode? (operand : Option Expression) (type : ValueType) : Option Value :=
  match operand with
  | none => machine.loadInteger config.contextNodeSlot
  | some expression =>
      (expression.value? machine config place? names).bind (expression.nodeOf? machine config type)

/-- What a function gives for a node of a document. -/
def NameFunction.value? (function : NameFunction) (document node : Value) : Option Value :=
  match function with
  | name => machine.apply config getNodeName [document, node]
  | localName => do
      machine.apply config getLocalName [← machine.apply config getNodeName [document, node]]
  | namespaceUri => machine.apply config getNamespaceName [document, node]

/-- The value of a call whose operand has a given type. -/
def NameCall.value? (call : NameCall) (type : ValueType) : Option Value := do
  let document ← machine.loadReference config.domSlot
  let node ← operandNode? machine config place? names call.operand type
  call.function.value? machine config document node

end Meaning

namespace RuntimeOperation

/-- How many values an operation takes from the stack. -/
def arity (operation : RuntimeOperation) : Nat :=
  match operation.kind with
  | .ofClass => operation.parameters.length
  | .ofInterface => 1 + operation.parameters.length

theorem ofInterface_of_mem_all : ∀ operation ∈ all, operation.result ≠ .void ∧
    (operation.kind = .ofInterface → operation.interfaceCount.toNat =
      1 + ValueType.totalSlots operation.parameters) := by
  decide

variable {Value : Type} {operation : RuntimeOperation} {config : Config}

theorem length_parameters_signature (config : Config) (plain : operation.Plain) :
    (operation.signature config).parameters.length = operation.parameters.length := by
  rw [signature, List.length_filterMap_eq_countP, List.countP_eq_length]
  intro type isParameter
  have allowed := plain type isParameter
  cases type <;> simp_all [ValueType.fieldType?]

theorem read_descriptor (plain : operation.Plain)
    (sound : (method (operation.reference config)).fault? = none) :
    MethodSignature.read (operation.descriptor config).toList =
      some (operation.signature config) := by
  have found := ofDescriptor_descriptor plain (readable_of_fault? plain sound)
  rw [MethodSignature.read_eq_some_iff]
  exact MethodSignature.ofDescriptor_eq_ok_iff.mp found

theorem result_signature (config : Config) (valued : operation.result ≠ .void) :
    ∃ type, (operation.signature config).result = some type := by
  cases isType : operation.result <;> simp_all [signature, ValueType.fieldType?]

theorem invoke_signature (machine : Machine Value) (valued : operation.result ≠ .void)
    (arguments stack : List Value) :
    machine.invoke (operation.reference config) (operation.signature config) arguments.length
        (arguments.reverse ++ stack) =
      (machine.apply config operation arguments).map (· :: stack) := by
  rcases result_signature config valued with ⟨type, isResult⟩
  have topmost : ((arguments.reverse ++ stack).take arguments.length).reverse = arguments := by
    simp
  have rest : (arguments.reverse ++ stack).drop arguments.length = stack := by
    simp
  simp only [Machine.invoke, Machine.apply, topmost, rest, isResult]
  split_ifs with accepted <;> simp_all

/-- Executing an invocation applies the operation to the topmost values. -/
theorem execute_invocation (machine : Machine Value) (isOperation : operation ∈ all)
    (sound : (method (operation.reference config)).fault? = none) {arguments stack : List Value}
    (enough : arguments.length = operation.arity) :
    (operation.invocation config).execute machine (arguments.reverse ++ stack) =
      (machine.apply config operation arguments).map (· :: stack) := by
  have plain := plain_of_mem_all operation isOperation
  have read := read_descriptor plain sound
  have called := ofInterface_of_mem_all operation isOperation
  have counted := length_parameters_signature config plain
  rw [← invoke_signature machine called.1, enough, arity]
  cases kind : operation.kind with
  | ofClass =>
      simp [invocation, kind, DecodedInstruction.execute, MethodReference.signature?, reference,
        read, counted]
  | ofInterface =>
      simp [invocation, kind, DecodedInstruction.execute, MethodReference.signature?, reference,
        read, counted, called.2 kind, argumentSlots_signature]

variable {first second third : Value} {stack : List Value}

theorem execute_unary (machine : Machine Value) (isOperation : operation ∈ all)
    (sound : (EmissionStep.append (operation.invocation config)).fault? = none)
    (enough : operation.arity = 1) :
    (operation.invocation config).execute machine (first :: stack) =
      (machine.apply config operation [first]).map (· :: stack) := by
  rw [fault?_invocation] at sound
  exact @execute_invocation _ _ _ machine isOperation sound [first] stack enough.symm

theorem execute_binary (machine : Machine Value) (isOperation : operation ∈ all)
    (sound : (EmissionStep.append (operation.invocation config)).fault? = none)
    (enough : operation.arity = 2) :
    (operation.invocation config).execute machine (second :: first :: stack) =
      (machine.apply config operation [first, second]).map (· :: stack) := by
  rw [fault?_invocation] at sound
  exact @execute_invocation _ _ _ machine isOperation sound [first, second] stack enough.symm

theorem execute_ternary (machine : Machine Value) (isOperation : operation ∈ all)
    (sound : (EmissionStep.append (operation.invocation config)).fault? = none)
    (enough : operation.arity = 3) :
    (operation.invocation config).execute machine (third :: second :: first :: stack) =
      (machine.apply config operation [first, second, third]).map (· :: stack) := by
  rw [fault?_invocation] at sound
  exact @execute_invocation _ _ _ machine isOperation sound [first, second, third] stack
    enough.symm

end RuntimeOperation

namespace EmissionStep

@[simp] theorem plan_nil : plan [] = [] := rfl

@[simp] theorem plan_append_cons (instruction : DecodedInstruction) (others : List EmissionStep) :
    plan (.append instruction :: others) = instruction :: plan others := rfl

@[simp] theorem plan_append (first second : List EmissionStep) :
    plan (first ++ second) = plan first ++ plan second :=
  List.filterMap_append

theorem plan_registrations (step : Step) : plan step.registrations = [] := by
  unfold Step.registrations
  split <;> rfl

theorem plan_preparations (config : Config) (operations : List RuntimeOperation) :
    plan (preparations config operations) = [] := by
  simp [plan, preparations, instruction?]

theorem plan_invocations (config : Config) (operations : List RuntimeOperation) :
    plan (invocations config operations) =
      operations.map fun operation => operation.invocation config := by
  induction operations with
  | nil => rfl
  | cons operation others ih => simp [invocations] at ih ⊢; exact ih

end EmissionStep

section Correctness

variable {Value : Type} (machine : Machine Value) {config : Config} {method : MethodDraft}
  {types : NodeTypes} {names : List String}

/-- A method whose reserved slots are those of the configuration. -/
structure MethodDraft.Reserves (method : MethodDraft) (config : Config) : Prop where
  documentSlot : method.documentSlot = config.domSlot
  contextNodeSlot : method.contextNodeSlot = config.contextNodeSlot

open DecodedInstruction

theorem executeAll_iteratorSteps (reserves : method.Reserves config) {axis : Axis}
    {type : Option Nat}
    (sound : ∀ step ∈ Emission.iteratorSteps config method axis type, step.fault? = none)
    (stack : List Value) :
    executeAll machine (plan (Emission.iteratorSteps config method axis type)) stack =
      (machine.iterator? config axis type).map (· :: stack) := by
  cases type with
  | none =>
      have invoked := sound (.append (getAxisIterator.invocation config))
        (by simp [Emission.iteratorSteps])
      rw [Emission.iteratorSteps, Machine.iterator?, reserves.documentSlot]
      cases loaded : machine.loadReference config.domSlot with
      | none => simp [loaded]
      | some document => simp [loaded, execute_binary machine (by decide) invoked rfl]
  | some type =>
      have invoked := sound (.append (getTypedAxisIterator.invocation config))
        (by simp [Emission.iteratorSteps])
      rw [Emission.iteratorSteps, Machine.iterator?, reserves.documentSlot]
      cases loaded : machine.loadReference config.domSlot with
      | none => simp [loaded]
      | some document => simp [loaded, execute_ternary machine (by decide) invoked rfl]

variable {operand : Option Expression} {expression : Expression} {type : ValueType}

/-- The code of an expression leaves its value on the stack. -/
theorem executeAll_script (reserves : method.Reserves config)
    (checked : CheckedOperand method (some expression) type)
    (sound : ∀ step ∈ expression.script config method types, step.fault? = none)
    (registered : ∀ step, expression = .step step →
      step.typeId? names = some (step.typeIn? types))
    (stack : List Value) :
    executeAll machine (plan (expression.script config method types)) stack =
      (expression.value? machine config method.local? names).map (· :: stack) := by
  cases checked with
  | contextNode => simp [Expression.script, Expression.value?, reserves.contextNodeSlot]
  | nodeVariable declared =>
      simp [Expression.script, Emission.variableSteps, Expression.value?, Machine.variableValue?,
        declared]
  | referenceVariable declared =>
      simp [Expression.script, Emission.variableSteps, Expression.value?, Machine.variableValue?,
        declared]
  | @nodeSetVariable name slot declared =>
      have cloned := sound (.append (cloneIterator.invocation config))
        (by simp [Expression.script, Emission.variableSteps, declared])
      simp only [Expression.script, Emission.variableSteps, Expression.value?,
        Machine.variableValue?, declared, Option.bind_some]
      cases loaded : machine.loadReference slot with
      | none => simp [loaded]
      | some iterator => simp [loaded, execute_unary machine (by decide) cloned rfl]
  | step step =>
      have soundSteps (other : EmissionStep) (isOther : other ∈ Emission.iteratorSteps config method
          step.axis (step.typeIn? types)) : other.fault? = none :=
        sound other (List.mem_append_right _ isOther)
      rw [Expression.script, plan_append, plan_registrations, List.nil_append, Expression.value?,
        executeAll_iteratorSteps machine reserves soundSteps, registered step rfl]
      rfl

/-- The code that follows an expression turns its value into the node that it stands for. -/
theorem executeAll_adaptScript (reserves : method.Reserves config)
    (checked : CheckedOperand method (some expression) type)
    (sound : ∀ step ∈ expression.adaptScript config method type, step.fault? = none)
    (value : Value) (stack : List Value) :
    executeAll machine (plan (expression.adaptScript config method type)) (value :: stack) =
      (expression.nodeOf? machine config type value).map (· :: stack) := by
  cases checked with
  | contextNode => simp [Expression.adaptScript, Expression.nodeOf?]
  | nodeVariable declared => simp [Expression.adaptScript, Expression.nodeOf?]
  | referenceVariable declared =>
      have converted := sound (.append (referenceToNodeSet.invocation config))
        (by simp [Expression.adaptScript])
      have advanced := sound (.append (next.invocation config)) (by simp [Expression.adaptScript])
      simp only [Expression.adaptScript, Expression.nodeOf?]
      cases applied : machine.apply config referenceToNodeSet [value] with
      | none => simp [applied, execute_unary machine (by decide) converted rfl]
      | some iterator =>
          simp [applied, execute_unary machine (by decide) converted rfl,
            execute_unary machine (by decide) advanced rfl]
  | nodeSetVariable declared =>
      have advanced := sound (.append (next.invocation config)) (by simp [Expression.adaptScript])
      simp [Expression.adaptScript, Expression.startScript, Expression.nodeOf?,
        execute_unary machine (by decide) advanced rfl]
  | step step =>
      have started := sound (.append (setStartNode.invocation config))
        (by simp [Expression.adaptScript, Expression.startScript])
      have advanced := sound (.append (next.invocation config)) (by simp [Expression.adaptScript])
      simp only [Expression.adaptScript, Expression.startScript, Expression.nodeOf?,
        reserves.contextNodeSlot]
      cases loaded : machine.loadInteger config.contextNodeSlot with
      | none => simp [loaded]
      | some context =>
          cases applied : machine.apply config setStartNode [value, context] with
          | none => simp [loaded, applied, execute_binary machine (by decide) started rfl]
          | some iterator =>
              simp [loaded, applied, execute_binary machine (by decide) started rfl,
                execute_unary machine (by decide) advanced rfl]

/-- The code of an operand leaves the node that the operand stands for above the document. -/
theorem executeAll_operandScript (reserves : method.Reserves config)
    (checked : CheckedOperand method operand type)
    (sound : firstFault? (Emission.operandScript config method types operand type) = none)
    (registered : ∀ step, operand = some (.step step) →
      step.typeId? names = some (step.typeIn? types))
    (stack : List Value) :
    executeAll machine (plan (Emission.operandScript config method types operand type)) stack =
      (machine.loadReference config.domSlot).bind fun document =>
        (operandNode? machine config method.local? names operand type).map
          (· :: document :: stack) := by
  have sound := firstFault?_eq_none_iff.mp sound
  cases operand with
  | none =>
      cases loaded : machine.loadReference config.domSlot with
      | none => simp [Emission.operandScript, reserves.documentSlot, loaded]
      | some document =>
          simp [Emission.operandScript, operandNode?, reserves.documentSlot,
            reserves.contextNodeSlot, loaded]
  | some expression =>
      have value := executeAll_script machine reserves checked
        (fun step isStep => sound step (by simp [Emission.operandScript, isStep]))
        (fun step isStep => registered step (congrArg some isStep))
      have adapted := executeAll_adaptScript machine reserves checked
        (fun step isStep => sound step (by simp [Emission.operandScript, isStep]))
      cases loaded : machine.loadReference config.domSlot with
      | none => simp [Emission.operandScript, reserves.documentSlot, loaded]
      | some document =>
          simp only [Emission.operandScript, plan_append_cons, plan_append, executeAll_cons,
            executeAll_append, execute_loadReference, reserves.documentSlot, loaded,
            Option.map_some, Option.bind_some, value, operandNode?]
          cases evaluated : expression.value? machine config method.local? names with
          | none => rfl
          | some value => simp [adapted]

/-- The code of the last operations gives what the function gives for the node on the stack. -/
theorem executeAll_finalOperations (function : NameFunction) (document node : Value)
    (stack : List Value) :
    executeAll machine (function.finalOperations.map fun operation => operation.invocation config)
        (node :: document :: stack) =
      (function.value? machine config document node).map (· :: stack) := by
  have sound {operation : RuntimeOperation} (isFinal : operation ∈ function.finalOperations) :
      (EmissionStep.append (operation.invocation config)).fault? = none := by
    rw [fault?_invocation]
    exact NameFunction.fault?_finalOperation isFinal config
  cases function with
  | name =>
      have named := @sound getNodeName (by simp [NameFunction.finalOperations])
      simp [NameFunction.finalOperations, NameFunction.value?,
        execute_binary machine (by decide) named rfl]
  | namespaceUri =>
      have named := @sound getNamespaceName (by simp [NameFunction.finalOperations])
      simp [NameFunction.finalOperations, NameFunction.value?,
        execute_binary machine (by decide) named rfl]
  | localName =>
      have named := @sound getNodeName (by simp [NameFunction.finalOperations])
      have cut := @sound getLocalName (by simp [NameFunction.finalOperations])
      simp only [NameFunction.finalOperations, NameFunction.value?]
      cases applied : machine.apply config getNodeName [document, node] with
      | none => simp [applied, execute_binary machine (by decide) named rfl]
      | some name =>
          simp [applied, execute_binary machine (by decide) named rfl,
            execute_unary machine (by decide) cut rfl]

/-- The code of a call leaves the value of the call on the stack and nothing else. -/
theorem NameCall.executeAll_script (reserves : method.Reserves config) {call : NameCall}
    (known : call.operandType = some type) (checked : CheckedOperand method call.operand type)
    (sound : firstFault? (call.script config method types) = none)
    (registered : ∀ step, call.operand = some (.step step) →
      step.typeId? names = some (step.typeIn? types)) :
    executeAll machine (plan (call.script config method types)) [] =
      (call.value? machine config method.local? names type).map ([·]) := by
  rw [firstFault?_script known] at sound
  have pushed := executeAll_operandScript machine reserves checked sound registered
  rw [script, known, NameCall.value?]
  simp only [plan_append, plan_preparations, plan_invocations, List.nil_append, executeAll_append,
    pushed]
  cases loaded : machine.loadReference config.domSlot with
  | none => rfl
  | some document =>
      cases operandNode? machine config method.local? names call.operand type with
      | none => simp
      | some node => simp [executeAll_finalOperations]

end Correctness

end NodeNames
