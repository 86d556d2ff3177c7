import NodeNames.CompileError
import Std.Data.TreeMap.Basic
/-!
# Configuration

The settings that all calls of a compile unit share: the classes of
the runtime library, the layout of local slots, the capacity of the constant
pool and the namespace bindings.
-/

namespace NodeNames

/-- The namespace that the qualifier `xml` always stands for. -/
def xmlNamespace : String := "http://www.w3.org/XML/1998/namespace"

def functionNamespace : String := "http://www.w3.org/2005/xpath-functions"

/-- The most entries that a constant pool can have: sixteen bits count them, and zero is unused. -/
def poolCapacity : Nat := 65534

/-- The settings of a compile unit. -/
structure Config where
  domInterface : String := "com/sun/org/apache/xalan/internal/xsltc/DOM"
  nodeIteratorInterface : String := "com/sun/org/apache/xml/internal/dtm/DTMAxisIterator"
  basisLibraryClass : String := "com/sun/org/apache/xalan/internal/xsltc/runtime/BasisLibrary"
  /-- The local slot with the document. -/
  domSlot : UInt16 := 1
  /-- The local slot with the context node. -/
  contextNodeSlot : UInt16 := 4
  /-- The first local slot for variables. -/
  firstFreeSlot : UInt16 := 5
  maxPoolEntries : Nat := poolCapacity
  /-- The namespace that each bound qualifier stands for. -/
  namespaces : Std.TreeMap String String := Std.TreeMap.empty.insert "xml" xmlNamespace
  /-- The namespace in which qualified function names are looked up. -/
  defaultFunctionNamespace : Option String := some functionNamespace

namespace Config

/-- Binds a qualifier; a later binding replaces an earlier one, and `xml` stays as it is. -/
def bindNamespace (config : Config) (qualifier uri : String) : Config :=
  if qualifier = "xml" then config
  else { config with namespaces := config.namespaces.insert qualifier uri }

/-- Limits the constant pool, at most to its capacity. -/
def limitPool (config : Config) (limit : Nat) : Config :=
  { config with maxPoolEntries := min limit poolCapacity }

def resolveQualifier? (config : Config) (qualifier : String) : Option String :=
  config.namespaces[qualifier]?

/-- Fills in the namespace of a qualified name; a name without a qualifier stays as it is. -/
def resolve (config : Config) (name : QName) : Except CompileError QName :=
  match name.qualifier with
  | none => .ok name
  | some qualifier =>
      match config.resolveQualifier? qualifier with
      | some uri => .ok { name with uri := some uri }
      | none => .error (.unboundQualifier qualifier)

end Config

namespace ValueType

def descriptor (config : Config) : ValueType → String
  | node | int => "I"
  | nodeSet => "L" ++ config.nodeIteratorInterface ++ ";"
  | reference => "Ljava/lang/Object;"
  | string => "Ljava/lang/String;"
  | boolean => "Z"
  | real => "D"
  | void => "V"

/-- The descriptor of a method with given parameters and result. -/
def methodDescriptor (config : Config) (parameters : List ValueType) (result : ValueType) :
    String :=
  "(" ++ String.join (parameters.map (descriptor config)) ++ ")" ++ result.descriptor config

end ValueType

end NodeNames
