import NodeNames.Config
import NodeNames.Interner
import NodeNames.MethodSignature
import NodeNames.Pool.Constant
/-!
# Constant pools

A pool holds each constant once. Adding a constant adds the parts that are
missing before the constant itself, and an addition that finds the pool full
leaves behind the parts it has already added.
-/

namespace NodeNames

/-- Constants with indices from one on, and the most entries that the pool may have. -/
structure ConstantPool where
  entries : Interner Constant
  limit : Nat

/-- An operation on a constant pool; the pool it leaves behind is kept also when it fails. -/
abbrev PoolAction := EStateM CompileError ConstantPool

namespace ConstantPool

/-- An empty pool, limited at most to the capacity of all pools. -/
def withLimit (limit : Nat) : ConstantPool :=
  { entries := Interner.empty, limit := min limit poolCapacity }

def size (pool : ConstantPool) : Nat :=
  pool.entries.size

def get? (pool : ConstantPool) (index : PoolIndex) : Option Constant :=
  if index = 0 then none else pool.entries.items[index - 1]?

def toList (pool : ConstantPool) : List (PoolIndex × Constant) :=
  pool.entries.items.toList.zipIdx.map fun entry => (entry.2 + 1, entry.1)

/-- The index of a constant, which is appended if it is new and the pool is not full. -/
def intern (constant : Constant) : PoolAction PoolIndex := fun pool =>
  match pool.entries.position? constant with
  | some position => .ok (position + 1) pool
  | none =>
      if pool.size < pool.limit then
        .ok (pool.size + 1) { pool with entries := pool.entries.push constant }
      else .error (.poolExhausted pool.limit) pool

def addText (text : String) : PoolAction PoolIndex :=
  intern (.utf8 text)

def addInteger (value : Int) : PoolAction PoolIndex :=
  intern (.integer value)

def addString (value : String) : PoolAction PoolIndex := do
  let text ← addText value
  intern (.string text)

def addClass (name : String) : PoolAction PoolIndex := do
  let text ← addText name
  intern (.classEntry text)

def addNameAndType (name descriptor : String) : PoolAction PoolIndex := do
  let nameIndex ← addText name
  let descriptorIndex ← addText descriptor
  intern (.nameAndType nameIndex descriptorIndex)

/-- The index of a method reference. A malformed descriptor is refused before anything is added. -/
def addMethodReference (reference : MethodReference) : PoolAction PoolIndex := do
  match MethodSignature.ofDescriptor reference.descriptor with
  | .error error => throw error
  | .ok _ =>
      let owner ← addClass reference.owner
      let nameAndType ← addNameAndType reference.name reference.descriptor
      intern (.methodReference reference.kind owner nameAndType)

def text? (pool : ConstantPool) (index : PoolIndex) : Option String :=
  match pool.get? index with
  | some (.utf8 text) => some text
  | _ => none

def className? (pool : ConstantPool) (index : PoolIndex) : Option String :=
  match pool.get? index with
  | some (.classEntry name) => pool.text? name
  | _ => none

def nameAndType? (pool : ConstantPool) (index : PoolIndex) : Option (String × String) :=
  match pool.get? index with
  | some (.nameAndType name descriptor) =>
      match pool.text? name, pool.text? descriptor with
      | some nameText, some descriptorText => some (nameText, descriptorText)
      | _, _ => none
  | _ => none

def methodReference? (pool : ConstantPool) (index : PoolIndex) : Option MethodReference :=
  match pool.get? index with
  | some (.methodReference kind owner nameAndType) =>
      match pool.className? owner, pool.nameAndType? nameAndType with
      | some className, some (name, descriptor) =>
          some { owner := className, name, descriptor, kind }
      | _, _ => none
  | _ => none

/-- The method reference with an index, which has to be one. -/
def methodReference (pool : ConstantPool) (index : PoolIndex) :
    Except CompileError MethodReference :=
  match pool.methodReference? index with
  | some reference => .ok reference
  | none => .error (.notMethodReference index)

/-- How many entries refer to a method with a given name. -/
def countReferences (pool : ConstantPool) (name : String) : Nat :=
  pool.toList.countP fun entry => (pool.methodReference? entry.1).any (·.name = name)

end ConstantPool

end NodeNames
