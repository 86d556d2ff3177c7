import NodeNames.Text.Cut
/-!
# Diagnostics

The codes under which faults are reported and the line that reports one.
Standard codes describe faults of the compiled text; the others are failures
of code generation, which never describe a fault of the text.
-/

namespace NodeNames

inductive ErrorCode where
  | syntaxFault
  | undeclaredVariable
  | unknownFunction
  | unboundQualifier
  | typeMismatch
  | poolExhausted
  | malformedDescriptor
  | wrongReference
  | stackUnderflow
  | countMismatch
  | uncheckedCall
  | slotsExhausted
  | unknown
deriving DecidableEq

namespace ErrorCode

def all : List ErrorCode :=
  [syntaxFault, undeclaredVariable, unknownFunction, unboundQualifier, typeMismatch, poolExhausted,
    malformedDescriptor, wrongReference, stackUnderflow, countMismatch, uncheckedCall,
    slotsExhausted, unknown]

def render : ErrorCode → String
  | syntaxFault => "XPST0003"
  | undeclaredVariable => "XPST0008"
  | unknownFunction => "XPST0017"
  | unboundQualifier => "XPST0081"
  | typeMismatch => "XPTY0004"
  | poolExhausted => "XSLTC0001"
  | malformedDescriptor => "XSLTC0002"
  | wrongReference => "XSLTC0003"
  | stackUnderflow => "XSLTC0004"
  | countMismatch => "XSLTC0005"
  | uncheckedCall => "XSLTC0006"
  | slotsExhausted => "XSLTC0007"
  | unknown => "UNKNOWN"

/-- Reads a code, with or without the qualifier `err:`; any other text is the unknown code. -/
def ofText (text : String) : ErrorCode :=
  let written := ((Text.afterWord? "err:".toList text.toList).map String.ofList).getD text
  (all.find? (·.render = written)).getD unknown

/-- Whether a code reports a failure of code generation. -/
def isInternal : ErrorCode → Bool
  | syntaxFault | undeclaredVariable | unknownFunction | unboundQualifier | typeMismatch
  | unknown => false
  | poolExhausted | malformedDescriptor | wrongReference | stackUnderflow | countMismatch
  | uncheckedCall | slotsExhausted => true

end ErrorCode

structure Diagnostic where
  code : ErrorCode
  message : String

namespace Diagnostic

def render (diagnostic : Diagnostic) : String :=
  "error: " ++ diagnostic.message ++ " (" ++ diagnostic.code.render ++ ")"

end Diagnostic

end NodeNames
