import NodeNames.Axis
import NodeNames.Code.Listing
import NodeNames.NodeTypes
/-!
# Drafts

A class and a method while they are being generated. Emitting code works
on both drafts at once; what it has done to them stays when it fails.
-/

namespace NodeNames

/-- A class being generated: all its methods share the constant pool and the node types. -/
structure ClassDraft where
  name : String
  config : Config
  pool : ConstantPool
  nodeTypes : NodeTypes

def ClassDraft.new (name : String) (config : Config) : ClassDraft :=
  { name
    config
    pool := ConstantPool.withLimit config.maxPoolEntries
    nodeTypes := Interner.empty }

/-- A variable of a method: its first slot and its type. -/
structure LocalVariable where
  slot : UInt16
  type : ValueType
deriving DecidableEq

structure MethodDraft where
  name : String
  code : Code
  /-- The local slot with the document. -/
  documentSlot : UInt16
  /-- The local slot with the context node. -/
  contextNodeSlot : UInt16
  nextSlot : UInt16
  locals : List (ExpandedName × LocalVariable)

/-- An operation on a method; what it has done to the method stays when it fails. -/
abbrev MethodAction := EStateM CompileError MethodDraft

namespace MethodDraft

/-- A method without code whose variables start at the first free slot. -/
def new (name : String) (config : Config) : MethodDraft :=
  { name
    code := []
    documentSlot := config.domSlot
    contextNodeSlot := config.contextNodeSlot
    nextSlot := config.firstFreeSlot
    locals := [] }

def local? (method : MethodDraft) (name : QName) : Option LocalVariable :=
  method.locals.lookup name.expandedName

/-- The slot that follows the slots of a variable, if slots go that far. -/
def slotAfter? (slot : UInt16) (type : ValueType) : Option UInt16 :=
  if slot.toNat + type.width ≤ 65535 then some (slot + UInt16.ofNat type.width) else none

/-- Sets slots aside for a variable in place of an earlier one with the same name. -/
def allocate (name : QName) (type : ValueType) : MethodAction UInt16 := do
  let slot := (← get).nextSlot
  match slotAfter? slot type with
  | none => throw (.noLocalSlot name (← get).name)
  | some nextSlot =>
      modify fun method => { method with nextSlot }
      modify fun method =>
        { method with
          locals := (name.expandedName, { slot, type }) ::
            method.locals.filter fun entry => entry.1 ≠ name.expandedName }
      return slot

/--
The slot of a variable. A variable that has the type already keeps its slot; otherwise slots are
set aside for it.
-/
def addLocal (name : QName) (type : ValueType) : MethodAction UInt16 := do
  match (← get).local? name with
  | some existing => if existing.type = type then return existing.slot else allocate name type
  | none => allocate name type

end MethodDraft

/-- A method being generated and its class. -/
structure Draft where
  classDraft : ClassDraft
  method : MethodDraft

/-- Emission of code; what it has done to the drafts stays when it fails. -/
abbrev Emission := EStateM CompileError Draft

namespace Emission

def config : Emission Config :=
  return (← get).classDraft.config

def onPool {Result : Type} (action : PoolAction Result) : Emission Result := fun draft =>
  match action draft.classDraft.pool with
  | .ok result pool => .ok result { draft with classDraft := { draft.classDraft with pool } }
  | .error error pool => .error error { draft with classDraft := { draft.classDraft with pool } }

def append (instruction : Instruction) : Emission Unit :=
  modify fun draft =>
    { draft with method := { draft.method with code := draft.method.code ++ [instruction] } }

def loadDocument : Emission Instruction :=
  return .aload (← get).method.documentSlot

def loadContextNode : Emission Instruction :=
  return .iload (← get).method.contextNodeSlot

/-- The node type for a name along an axis, which is registered if it is new. -/
def registerName (axis : Axis) (name : QName) : Emission Nat :=
  modifyGet fun draft =>
    let registered :=
      if axis = .attributeAxis then draft.classDraft.nodeTypes.registerAttribute name
      else draft.classDraft.nodeTypes.registerElement name
    (registered.1, { draft with classDraft := { draft.classDraft with nodeTypes := registered.2 } })

end Emission

end NodeNames
