import NodeNames.Proofs.Machine.Meaning
/-!
# Machines that respect types

A reading of types says which values of a machine belong to a type. A machine
respects it when its local slots have values of the types that they are set
aside for and operations take values of their parameters to values of their
results. Every checked call then has a value, which belongs to strings.
-/

namespace NodeNames

open RuntimeOperation

variable {Value : Type}

/-- Which values are documents and which belong to a type. -/
structure TypeReading (Value : Type) where
  IsDocument : Value → Prop
  Belongs : ValueType → Value → Prop

namespace TypeReading

/-- The receiver that an operation is called on, if it is called on one, and its arguments. -/
def Takes (reading : TypeReading Value) (operation : RuntimeOperation) (arguments : List Value) :
    Prop :=
  match operation.owner, arguments with
  | .basisLibrary, arguments => List.Forall₂ reading.Belongs operation.parameters arguments
  | .dom, receiver :: arguments =>
      reading.IsDocument receiver ∧ List.Forall₂ reading.Belongs operation.parameters arguments
  | .nodeIterator, receiver :: arguments =>
      reading.Belongs .nodeSet receiver ∧
        List.Forall₂ reading.Belongs operation.parameters arguments
  | _, [] => False

end TypeReading

namespace Machine

/-- Local slots and operations have values of their types. -/
structure Respects (machine : Machine Value) (config : Config) (method : MethodDraft)
    (reading : TypeReading Value) : Prop where
  document : ∃ value, machine.loadReference config.domSlot = some value ∧
    reading.IsDocument value
  contextNode : ∃ value, machine.loadInteger config.contextNodeSlot = some value ∧
    reading.Belongs .node value
  integer : ∀ value, reading.Belongs .int (machine.integer value)
  nodeVariable : ∀ name slot, method.local? name = some ⟨slot, .node⟩ →
    ∃ value, machine.loadInteger slot = some value ∧ reading.Belongs .node value
  otherVariable : ∀ name slot type, type.NeedsIterator → method.local? name = some ⟨slot, type⟩ →
    ∃ value, machine.loadReference slot = some value ∧ reading.Belongs type value
  apply : ∀ operation ∈ all, ∀ arguments, reading.Takes operation arguments →
    ∃ value, machine.apply config operation arguments = some value ∧
      reading.Belongs operation.result value

variable {machine : Machine Value} {config : Config} {method : MethodDraft}
  {reading : TypeReading Value}

namespace Respects

theorem iterator? (respects : machine.Respects config method reading) (axis : Axis)
    (type : Option Nat) :
    ∃ value, machine.iterator? config axis type = some value ∧ reading.Belongs .nodeSet value := by
  rcases respects.document with ⟨document, loaded, isDocument⟩
  rw [Machine.iterator?.eq_def]
  cases type with
  | none =>
      rcases respects.apply getAxisIterator (by decide) [document, machine.integer axis.id]
        ⟨isDocument, .cons (respects.integer _) .nil⟩ with ⟨value, applied, belongs⟩
      exact ⟨value, by simp [loaded, applied], belongs⟩
  | some type =>
      rcases respects.apply getTypedAxisIterator (by decide)
        [document, machine.integer axis.id, machine.integer type]
        ⟨isDocument, .cons (respects.integer _) (.cons (respects.integer _) .nil)⟩ with
        ⟨value, applied, belongs⟩
      exact ⟨value, by simp [loaded, applied], belongs⟩

/-- The value of a checked operand belongs to its type. -/
theorem expressionValue? (respects : machine.Respects config method reading)
    {names : List String} {expression : Expression} {type : ValueType}
    (checked : CheckedOperand method (some expression) type)
    (registered : ∀ step, expression = .step step → (step.typeId? names).isSome) :
    ∃ value, expression.value? machine config method.local? names = some value ∧
      reading.Belongs type value := by
  cases checked with
  | contextNode => exact respects.contextNode
  | @nodeVariable name slot declared =>
      rcases respects.nodeVariable name slot declared with ⟨value, loaded, belongs⟩
      exact ⟨value, by simp [Expression.value?, declared, variableValue?, loaded], belongs⟩
  | @referenceVariable name slot declared =>
      rcases respects.otherVariable name slot .reference (.inr rfl) declared with
        ⟨value, loaded, belongs⟩
      exact ⟨value, by simp [Expression.value?, declared, variableValue?, loaded], belongs⟩
  | @nodeSetVariable name slot declared =>
      rcases respects.otherVariable name slot .nodeSet (.inl rfl) declared with
        ⟨iterator, loaded, isIterator⟩
      rcases respects.apply cloneIterator (by decide) [iterator] ⟨isIterator, .nil⟩ with
        ⟨value, applied, belongs⟩
      exact ⟨value, by simp [Expression.value?, declared, variableValue?, loaded, applied], belongs⟩
  | step step =>
      rcases Option.isSome_iff_exists.mp (registered step rfl) with ⟨type, isType⟩
      rw [Expression.value?, isType]
      exact respects.iterator? step.axis type

/-- The value of a checked operand stands for a node. -/
theorem nodeOf? (respects : machine.Respects config method reading) {expression : Expression}
    {type : ValueType} {value : Value} (checked : CheckedOperand method (some expression) type)
    (belongs : reading.Belongs type value) :
    ∃ node, expression.nodeOf? machine config type value = some node ∧
      reading.Belongs .node node := by
  have advance {iterator : Value} (isIterator : reading.Belongs .nodeSet iterator) :
      ∃ node, machine.apply config next [iterator] = some node ∧ reading.Belongs .node node :=
    respects.apply next (by decide) [iterator] ⟨isIterator, .nil⟩
  cases checked with
  | contextNode => exact ⟨value, rfl, belongs⟩
  | nodeVariable declared => exact ⟨value, rfl, belongs⟩
  | nodeSetVariable declared => exact advance belongs
  | referenceVariable declared =>
      rcases respects.apply referenceToNodeSet (by decide) [value] (.cons belongs .nil) with
        ⟨iterator, applied, isIterator⟩
      rcases advance isIterator with ⟨node, advanced, isNode⟩
      exact ⟨node, by simp [Expression.nodeOf?, applied, advanced], isNode⟩
  | step step =>
      rcases respects.contextNode with ⟨context, loaded, isContext⟩
      rcases respects.apply setStartNode (by decide) [value, context]
        ⟨belongs, .cons isContext .nil⟩ with ⟨iterator, applied, isIterator⟩
      rcases advance isIterator with ⟨node, advanced, isNode⟩
      exact ⟨node, by simp [Expression.nodeOf?, loaded, applied, advanced], isNode⟩

theorem operandNode? (respects : machine.Respects config method reading)
    {names : List String} {operand : Option Expression} {type : ValueType}
    (checked : CheckedOperand method operand type)
    (registered : ∀ step, operand = some (.step step) → (step.typeId? names).isSome) :
    ∃ node, NodeNames.operandNode? machine config method.local? names operand type = some node ∧
      reading.Belongs .node node := by
  cases operand with
  | none => exact respects.contextNode
  | some expression =>
      rcases respects.expressionValue? checked
        (fun step isStep => registered step (congrArg some isStep)) with ⟨value, evaluated, belongs⟩
      rcases respects.nodeOf? checked belongs with ⟨node, adapted, isNode⟩
      exact ⟨node, by simp [NodeNames.operandNode?, evaluated, adapted], isNode⟩

theorem functionValue? (respects : machine.Respects config method reading)
    (function : NameFunction) {document node : Value} (isDocument : reading.IsDocument document)
    (isNode : reading.Belongs .node node) :
    ∃ value, function.value? machine config document node = some value ∧
      reading.Belongs .string value := by
  cases function with
  | name => exact respects.apply getNodeName (by decide) _ ⟨isDocument, .cons isNode .nil⟩
  | namespaceUri =>
      exact respects.apply getNamespaceName (by decide) _ ⟨isDocument, .cons isNode .nil⟩
  | localName =>
      rcases respects.apply getNodeName (by decide) [document, node]
        ⟨isDocument, .cons isNode .nil⟩ with ⟨name, named, isName⟩
      rcases respects.apply getLocalName (by decide) [name] (.cons isName .nil) with
        ⟨value, cut, isString⟩
      exact ⟨value, by simp [NameFunction.value?, named, cut], isString⟩

/-- A checked call whose names are registered has a value, and the value belongs to strings. -/
theorem callValue? (respects : machine.Respects config method reading) {names : List String}
    {call : NameCall} {type : ValueType} (checked : CheckedOperand method call.operand type)
    (registered : ∀ step, call.operand = some (.step step) → (step.typeId? names).isSome) :
    ∃ value, call.value? machine config method.local? names type = some value ∧
      reading.Belongs .string value := by
  rcases respects.document with ⟨document, loaded, isDocument⟩
  rcases respects.operandNode? checked registered with ⟨node, evaluated, isNode⟩
  rcases respects.functionValue? call.function isDocument isNode with ⟨value, named, isString⟩
  exact ⟨value, by simp [NameCall.value?, loaded, evaluated, named], isString⟩

end Respects

end Machine

end NodeNames
