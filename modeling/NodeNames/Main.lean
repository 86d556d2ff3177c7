import NodeNames.CommandLine.Arguments
import NodeNames.CommandLine.Execution
/-!
# The command line program

Prints what a command puts out. Faults go to the error stream, and the exit
code is one for a fault of the call and two for a fault of the command line.
-/

namespace NodeNames

def usage : String :=
  "usage: nodenames [-v] compile CALL [--var NAME=TYPE]... [--namespace PREFIX=URI]...\n" ++
  "                 [--format text|json] [-v]\n" ++
  "       nodenames [-v] functions [--format text|json] [-v]"

/-- What is said about a command line that gives nothing to do. -/
def UsageOutcome.message : UsageOutcome → String
  | nothingGiven => usage
  | missingCommand => "a command is missing"
  | unknownCommand => "there is no such command"
  | missingCall => "the call to compile is missing"
  | unknownArgument => "an argument is not known"
  | malformedPair message => message
  | invalidValue => "the value of an option is not one of its values"
  | missingValue => "the value of an option is missing"
  | unneededValue => "an option takes no value"
  | repeatedArgument => "an option is given twice"
  | helpRequested => usage
  | versionRequested => "nodenames 0.1.0"

end NodeNames

open NodeNames in
def main (arguments : List String) : IO UInt32 := do
  match Invocation.read arguments with
  | .error outcome =>
      if outcome = .helpRequested ∨ outcome = .versionRequested then
        IO.println outcome.message
        return 0
      else
        IO.eprintln outcome.message
        return 2
  | .ok invocation =>
      match invocation.command.execute with
      | .ok output =>
          IO.println output
          return 0
      | .error error =>
          IO.eprintln error.diagnostic.render
          return 1
