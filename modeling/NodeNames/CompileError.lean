import NodeNames.Diagnostic
import NodeNames.Pool.Reference
import NodeNames.QName
import NodeNames.ValueType
/-!
# Compile errors

The causes for which compiling a call fails, each with the code and the
message under which it is reported.
-/

namespace NodeNames

/-- Why a call cannot be compiled. -/
inductive CompileError where
  /-- The text is not a call; the account says where reading it got stuck. -/
  | unreadable (account : String)
  | undeclaredVariable (name : QName)
  | unknownFunction (name : QName) (argumentCount : Nat)
  | tooManyArguments (function : String) (argumentCount : Nat)
  | unboundQualifier (qualifier : String)
  | operandNotNode (function : String) (found : ValueType)
  | poolExhausted (limit : Nat)
  | malformedDescriptor (descriptor : String)
  | notMethodReference (index : PoolIndex)
  | wrongMethodKind (index : PoolIndex) (reference : MethodReference) (expected : MethodKind)
  | countMismatch (position : Nat) (reference : MethodReference) (declared needed : Nat)
  | stackUnderflow (position : Nat) (instruction : String) (consumed depth : Nat)
  | uncheckedCall (function : String)
  | noLocalSlot (variableName : QName) (method : String)
deriving DecidableEq

namespace CompileError

def code : CompileError → ErrorCode
  | unreadable _ => .syntaxFault
  | undeclaredVariable _ => .undeclaredVariable
  | unknownFunction _ _ => .unknownFunction
  | tooManyArguments _ _ => .unknownFunction
  | unboundQualifier _ => .unboundQualifier
  | operandNotNode _ _ => .typeMismatch
  | poolExhausted _ => .poolExhausted
  | malformedDescriptor _ => .malformedDescriptor
  | notMethodReference _ => .wrongReference
  | wrongMethodKind _ _ _ => .wrongReference
  | countMismatch _ _ _ _ => .countMismatch
  | stackUnderflow _ _ _ _ => .stackUnderflow
  | uncheckedCall _ => .uncheckedCall
  | noLocalSlot _ _ => .slotsExhausted

def message : CompileError → String
  | unreadable account => account
  | undeclaredVariable name => s!"variable ${name.render} is not declared"
  | unknownFunction name argumentCount => s!"unknown function {name.render}#{argumentCount}"
  | tooManyArguments function argumentCount =>
      s!"{function}() takes zero or one argument, got {argumentCount}"
  | unboundQualifier qualifier => "namespace prefix '" ++ qualifier ++ "' is not bound"
  | operandNotNode function found =>
      s!"argument of {function}() must be a node or node-set, found {found.render}"
  | poolExhausted limit => s!"constant pool exhausted ({limit} entries)"
  | malformedDescriptor descriptor => "malformed method descriptor '" ++ descriptor ++ "'"
  | notMethodReference index => s!"{index.render} is not a method reference"
  | wrongMethodKind index reference expected =>
      s!"{index.render} ({reference.render}) is not a {expected.render} reference"
  | countMismatch position reference declared needed =>
      s!"{position}: invokeinterface {reference.render} declares {declared} slots, " ++
        s!"descriptor needs {needed}"
  | stackUnderflow position instruction consumed depth =>
      s!"{position}: '{instruction}' pops {consumed} with depth {depth}"
  | uncheckedCall function => s!"{function}() translated before type check"
  | noLocalSlot variableName method =>
      s!"no local slot left for ${variableName.render} in {method}"

def diagnostic (error : CompileError) : Diagnostic :=
  { code := error.code, message := error.message }

end CompileError

end NodeNames
