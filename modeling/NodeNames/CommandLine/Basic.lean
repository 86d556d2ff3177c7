import NodeNames.Text.Cut
import NodeNames.ValueType
/-!
# Commands

What the command line can ask for, and why it can be refused.
-/

namespace NodeNames

inductive OutputFormat where
  | text
  | json
deriving DecidableEq

/-- A call to compile, with the variables and the namespaces that it can refer to. -/
structure CompileRequest where
  call : String
  declarations : List (String × ValueType)
  namespaces : List (String × String)
  format : OutputFormat

inductive Command where
  | compile (request : CompileRequest)
  | functions (format : OutputFormat)

structure Invocation where
  command : Command
  verbose : Bool

/-- Why there is nothing to do: the command line is at fault, or asks about the program. -/
inductive UsageOutcome where
  | nothingGiven
  | missingCommand
  | unknownCommand
  | missingCall
  | unknownArgument
  | malformedPair (message : String)
  | invalidValue
  | missingValue
  | unneededValue
  | repeatedArgument
  | helpRequested
  | versionRequested
deriving DecidableEq

/-- Splits a pair at its first equals sign and trims both sides, which may not be blank. -/
def splitPair (shape text : String) : Except String (String × String) :=
  let refusal := "expected " ++ shape ++ ", got '" ++ text ++ "'"
  match Text.splitAtFirst? '=' text with
  | none => .error refusal
  | some (left, right) =>
      let trimmed := (Text.trim left, Text.trim right)
      if trimmed.1.isEmpty || trimmed.2.isEmpty then .error refusal else .ok trimmed

def readVariablePair (text : String) : Except String (String × ValueType) := do
  let (name, typeName) ← splitPair "NAME=TYPE" text
  return (name, ← ValueType.ofName typeName)

/-- Reads a qualifier and the namespace that it stands for. -/
def readNamespacePair (text : String) : Except String (String × String) :=
  splitPair "PREFIX=URI" text

end NodeNames
