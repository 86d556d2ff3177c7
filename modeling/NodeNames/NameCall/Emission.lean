import NodeNames.Emission.RuntimeOperation
import NodeNames.NameCall.Basic
/-!
# Code of calls

The code that pushes the value of an expression, and the document and the node
that a function works on. A checked call pushes these and then invokes the
operations of its function, whose references are interned before anything is
pushed.
-/

namespace NodeNames

/-- The condition of a step as a node type; a test for any node has none. -/
def Step.nodeType? (step : Step) : Emission (Option Nat) :=
  match step.test with
  | .anyNode => return none
  | .kind kind => return some kind.typeId
  | .wildcard => return some step.axis.principalKind.typeId
  | .name name => return some (← Emission.registerName step.axis name)

namespace Emission

def push (value : Int) : Emission Unit := do
  append (← onPool (Instruction.push value))

/-- Pushes the value of a variable; every use of a node-set gets an iterator of its own. -/
def pushVariable (name : QName) : Emission Unit := do
  match (← get).method.local? name with
  | none => throw (.undeclaredVariable name)
  | some declared =>
      match declared.type with
      | .node | .int | .boolean => append (.iload declared.slot)
      | .real => append (.dload declared.slot)
      | .reference | .string | .void => append (.aload declared.slot)
      | .nodeSet =>
          append (.aload declared.slot)
          RuntimeOperation.cloneIterator.emit

/-- Pushes an iterator over the nodes of a step, which still has to be started. -/
def pushStep (step : Step) : Emission Unit := do
  let nodeType ← step.nodeType?
  append (← loadDocument)
  push step.axis.id
  match nodeType with
  | some type =>
      push type
      RuntimeOperation.getTypedAxisIterator.emit
  | none => RuntimeOperation.getAxisIterator.emit

end Emission

namespace Expression

def emit : Expression → Emission Unit
  | contextNode => do Emission.append (← Emission.loadContextNode)
  | variableReference name => Emission.pushVariable name
  | step selected => Emission.pushStep selected
  | literal value => do
      let index ← Emission.onPool (ConstantPool.addString value)
      Emission.append (.load index)

/--
Starts the iterator on the stack at the context node. The iterator of a variable has been started
already, and a value of another type is left alone.
-/
def startIterator (expression : Expression) (type : ValueType) : Emission Unit :=
  match type, expression with
  | .nodeSet, variableReference _ => return ()
  | .nodeSet, _ => do
      Emission.append (← Emission.loadContextNode)
      RuntimeOperation.setStartNode.emit
  | _, _ => return ()

end Expression

/-- Pushes the document and the node that a function works on, the first node of a node-set. -/
def Emission.pushOperand (operand : Option Expression) (type : ValueType) : Emission Unit := do
  append (← loadDocument)
  match operand with
  | none => append (← loadContextNode)
  | some expression =>
      expression.emit
      match type with
      | .node => return ()
      | .reference =>
          RuntimeOperation.referenceToNodeSet.emit
          RuntimeOperation.next.emit
      | _ =>
          expression.startIterator type
          RuntimeOperation.next.emit

/-- The operations that follow the operand; the first one takes the document and the node. -/
def NameFunction.finalOperations : NameFunction → List RuntimeOperation
  | name => [.getNodeName]
  | localName => [.getNodeName, .getLocalName]
  | namespaceUri => [.getNamespaceName]

/-- Appends the code that leaves the result of a checked call on the stack. -/
def NameCall.emit (call : NameCall) : Emission Unit :=
  match call.operandType with
  | none => throw (.uncheckedCall call.function.render)
  | some type => do
      let invocations ← call.function.finalOperations.mapM fun operation =>
        return operation.invoke (← operation.intern)
      Emission.pushOperand call.operand type
      invocations.forM Emission.append

end NodeNames
