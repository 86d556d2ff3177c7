import NodeNames.Interner
import NodeNames.QName
/-!
# Node types of named nodes

Named elements and attributes are numbered in the order in which they are
first used. Both share one row of numbers; the key of an attribute starts with
an at sign, so that an element and an attribute of one name differ.
-/

namespace NodeNames

def firstNamedType : Nat := 14

/-- The keys of the named nodes in the order of their types. -/
abbrev NodeTypes := Interner String

namespace NodeTypes

def names (types : NodeTypes) : List String :=
  types.items.toList

/-- The type of a key, which is registered if it is new. -/
def register (types : NodeTypes) (key : String) : Nat × NodeTypes :=
  let interned := types.intern key
  (firstNamedType + interned.1, interned.2)

def registerElement (types : NodeTypes) (name : QName) : Nat × NodeTypes :=
  types.register name.typeKey

def registerAttribute (types : NodeTypes) (name : QName) : Nat × NodeTypes :=
  types.register ("@" ++ name.typeKey)

end NodeTypes

end NodeNames
