import NodeNames.Emission.Draft
/-!
# Runtime operations

The operations of the runtime library that generated code invokes: which class
declares them, what they take and return, and how they are called.
-/

namespace NodeNames

/-- Which part of the runtime library declares an operation. -/
inductive OperationOwner where
  | dom
  | nodeIterator
  | basisLibrary
deriving DecidableEq

def OperationOwner.className (config : Config) : OperationOwner → String
  | dom => config.domInterface
  | nodeIterator => config.nodeIteratorInterface
  | basisLibrary => config.basisLibraryClass

/-- An operation; one that is declared by an interface is called on a receiver. -/
structure RuntimeOperation where
  owner : OperationOwner
  name : String
  parameters : List ValueType
  result : ValueType
  kind : MethodKind
deriving DecidableEq

namespace RuntimeOperation

def descriptor (operation : RuntimeOperation) (config : Config) : String :=
  ValueType.methodDescriptor config operation.parameters operation.result

/-- The method that a configuration gives for an operation. -/
def reference (operation : RuntimeOperation) (config : Config) : MethodReference :=
  { owner := operation.owner.className config
    name := operation.name
    descriptor := operation.descriptor config
    kind := operation.kind }

/-- The slots of the receiver and the arguments, as the one byte that an invocation has for it. -/
def interfaceCount (operation : RuntimeOperation) : UInt8 :=
  UInt8.ofNat (1 + ValueType.totalSlots operation.parameters)

/-- The instruction that invokes an operation through its reference. -/
def invoke (operation : RuntimeOperation) (index : PoolIndex) : Instruction :=
  match operation.kind with
  | .ofInterface => .invokeInterface index operation.interfaceCount
  | .ofClass => .invokeStatic index

/-- The index of the reference to an operation in the constant pool. -/
def intern (operation : RuntimeOperation) : Emission PoolIndex := do
  let config ← Emission.config
  Emission.onPool (ConstantPool.addMethodReference (operation.reference config))

/-- Appends an invocation of an operation and returns the index of its reference. -/
def emitIndexed (operation : RuntimeOperation) : Emission PoolIndex := do
  let index ← operation.intern
  Emission.append (operation.invoke index)
  return index

def emit (operation : RuntimeOperation) : Emission Unit := do
  let _ ← operation.emitIndexed

/-- The name of a node as it is written in the document. -/
def getNodeName : RuntimeOperation :=
  { owner := .dom, name := "getNodeName", parameters := [.node], result := .string
    kind := .ofInterface }

/-- The namespace of the name of a node. -/
def getNamespaceName : RuntimeOperation :=
  { owner := .dom, name := "getNamespaceName", parameters := [.node], result := .string
    kind := .ofInterface }

/-- The local part of a name. -/
def getLocalName : RuntimeOperation :=
  { owner := .basisLibrary, name := "getLocalName", parameters := [.string], result := .string
    kind := .ofClass }

/-- An iterator over an axis. -/
def getAxisIterator : RuntimeOperation :=
  { owner := .dom, name := "getAxisIterator", parameters := [.int], result := .nodeSet
    kind := .ofInterface }

/-- An iterator over the nodes of one type on an axis. -/
def getTypedAxisIterator : RuntimeOperation :=
  { owner := .dom, name := "getTypedAxisIterator", parameters := [.int, .int], result := .nodeSet
    kind := .ofInterface }

/-- The iterator that a value of unknown type turns out to be. -/
def referenceToNodeSet : RuntimeOperation :=
  { owner := .basisLibrary, name := "referenceToNodeSet", parameters := [.reference]
    result := .nodeSet, kind := .ofClass }

/-- The next node of an iterator. -/
def next : RuntimeOperation :=
  { owner := .nodeIterator, name := "next", parameters := [], result := .node
    kind := .ofInterface }

/-- The iterator, started at a node. -/
def setStartNode : RuntimeOperation :=
  { owner := .nodeIterator, name := "setStartNode", parameters := [.node], result := .nodeSet
    kind := .ofInterface }

/-- A copy of an iterator. -/
def cloneIterator : RuntimeOperation :=
  { owner := .nodeIterator, name := "cloneIterator", parameters := [], result := .nodeSet
    kind := .ofInterface }

def all : List RuntimeOperation :=
  [getNodeName, getNamespaceName, getLocalName, getAxisIterator, getTypedAxisIterator,
    referenceToNodeSet, next, setStartNode, cloneIterator]

/-- The operation that emitted code invokes under a name. -/
def ofName? (name : String) : Option RuntimeOperation :=
  all.find? (·.name = name)

end RuntimeOperation

end NodeNames
