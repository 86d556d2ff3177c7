/-!
# Value types

The static types of values and the room that a value takes in the machine.
-/

namespace NodeNames

/--
The type of a value. A node is a number, a node-set is an iterator, and a reference is a value
whose type is not known.
-/
inductive ValueType where
  | node
  | nodeSet
  | reference
  | string
  | boolean
  | int
  | real
  | void
deriving DecidableEq

namespace ValueType

def render : ValueType → String
  | node => "node"
  | nodeSet => "node-set"
  | reference => "reference"
  | string => "string"
  | boolean => "boolean"
  | int => "int"
  | real => "real"
  | void => "void"

/-- The names by which types are known; two types have a second name. -/
def names : List (String × ValueType) :=
  [("node", node), ("node-set", nodeSet), ("nodeset", nodeSet), ("reference", reference),
    ("string", string), ("boolean", boolean), ("int", int), ("real", real), ("number", real),
    ("void", void)]

def ofName? (name : String) : Option ValueType :=
  names.lookup name

def slots : ValueType → Nat
  | void => 0
  | real => 2
  | node | nodeSet | reference | string | boolean | int => 1

/-- How many slots of the stack values of the given types take together. -/
def totalSlots : List ValueType → Nat
  | [] => 0
  | type :: others => type.slots + totalSlots others

/-- How many local slots are set aside for a variable, which has at least one. -/
def width (type : ValueType) : Nat :=
  max 1 type.slots

/-- Whether a value can be the operand of a name function. -/
def isNodeLike : ValueType → Bool
  | node | nodeSet | reference => true
  | string | boolean | int | real | void => false

/-- The type with a given name, or the reason why there is none. -/
def ofName (name : String) : Except String ValueType :=
  match ofName? name with
  | some type => .ok type
  | none => .error ("unknown type: " ++ name)

end ValueType

end NodeNames
