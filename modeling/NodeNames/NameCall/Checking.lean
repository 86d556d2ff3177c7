import NodeNames.NameCall.Basic
/-!
# Checking calls

The types of the variables that a call can refer to, the static type of an
expression, and the check that the operand of a call is a node, a node-set or a
value that may turn out to be one. A variable is known by its expanded name.
-/

namespace NodeNames

/-- The types of declared variables, each once. -/
structure SymbolTable where
  types : List (ExpandedName × ValueType)

namespace SymbolTable

def empty : SymbolTable :=
  { types := [] }

/-- Declares a variable in place of an earlier declaration of the same name. -/
def declare (table : SymbolTable) (name : QName) (type : ValueType) : SymbolTable :=
  { types := (name.expandedName, type) ::
      table.types.filter fun entry => entry.1 ≠ name.expandedName }

def lookup? (table : SymbolTable) (name : QName) : Option ValueType :=
  table.types.lookup name.expandedName

def size (table : SymbolTable) : Nat :=
  table.types.length

end SymbolTable

/-- The type of an expression, given the types of the variables. -/
def Expression.type (expression : Expression) (symbols : SymbolTable) :
    Except CompileError ValueType :=
  match expression with
  | contextNode => .ok .node
  | variableReference name =>
      match symbols.lookup? name with
      | some type => .ok type
      | none => .error (.undeclaredVariable name)
  | step _ => .ok .nodeSet
  | literal _ => .ok .string

/-- The type of the operand of a function, which has to be at most one node-like value. -/
def checkOperand (function : String) (arguments : List Expression) (symbols : SymbolTable) :
    Except CompileError ValueType := do
  let type ←
    match arguments with
    | [] => pure .node
    | [argument] => argument.type symbols
    | _ => throw (.tooManyArguments function arguments.length)
  if type.isNodeLike then return type else throw (.operandNotNode function type)

/-- Checks the operand of a call; the checked call knows its type. -/
def NameCall.check (call : NameCall) (symbols : SymbolTable) : Except CompileError NameCall := do
  let type ← checkOperand call.function.render call.operand.toList symbols
  return { call with operandType := some type }

end NodeNames
