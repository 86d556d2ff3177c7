import NodeNames.Call.Basic
import NodeNames.Config
/-!
# Calls of name functions

The functions that give the name of a node or a part of it, and calls of them
with at most one operand. A written call is resolved to one of these by filling
in the namespaces of its names and finding the function that it calls. A
function is known by a name in no namespace, or in the default namespace of
functions.
-/

namespace NodeNames

/-- A function that gives the name of a node or a part of it. -/
inductive NameFunction where
  /-- The name as it is written in the document. -/
  | name
  /-- The name without its qualifier. -/
  | localName
  /-- The namespace of the name. -/
  | namespaceUri
deriving DecidableEq

namespace NameFunction

def all : List NameFunction :=
  [name, localName, namespaceUri]

def render : NameFunction → String
  | name => "name"
  | localName => "local-name"
  | namespaceUri => "namespace-uri"

def ofName? (called : String) : Option NameFunction :=
  all.find? (·.render = called)

end NameFunction

/--
A call of a name function. Without an operand it works on the context node. The type of the
operand is known once the call has been checked.
-/
structure NameCall where
  function : NameFunction
  name : QName
  operand : Option Expression
  operandType : Option ValueType
deriving DecidableEq

namespace NameCall

/-- A call without an operand, which needs no check. -/
def onContextNode (function : NameFunction) (name : QName) : NameCall :=
  { function, name, operand := none, operandType := some .node }

/-- A call with an operand, not yet checked. -/
def onOperand (function : NameFunction) (name : QName) (operand : Expression) : NameCall :=
  { function, name, operand := some operand, operandType := none }

def argumentCount (call : NameCall) : Nat :=
  call.operand.toList.length

def render (call : NameCall) : String :=
  call.name.render ++ "(" ++ ((call.operand.map Expression.render).getD "") ++ ")"

def resultType : ValueType := .string

end NameCall

/-- Fills in the namespace of the name in an operand, if it has one. -/
def Expression.resolve (config : Config) : Expression → Except CompileError Expression
  | variableReference name => return variableReference (← config.resolve name)
  | step { axis, test := .name name } =>
      return step { axis, test := .name (← config.resolve name) }
  | other => return other

def NameFunction.ofQName? (config : Config) (name : QName) : Option NameFunction :=
  if name.uri = none ∨ name.uri = config.defaultFunctionNamespace then
    ofName? name.localPart
  else none

/-- The call of a name function that a written call stands for. -/
def FunctionCall.resolve (call : FunctionCall) (config : Config) :
    Except CompileError NameCall := do
  let name ← config.resolve call.name
  match NameFunction.ofQName? config name with
  | none => throw (.unknownFunction call.name call.arguments.length)
  | some function =>
      match ← call.arguments.mapM (Expression.resolve config) with
      | [] => return .onContextNode function name
      | [operand] => return .onOperand function name operand
      | operands => throw (.tooManyArguments function.render operands.length)

end NodeNames
