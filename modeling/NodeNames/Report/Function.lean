import NodeNames.NameCall.Emission
import NodeNames.Report.Json
import NodeNames.Text.Cut
/-!
# Reports on functions

What is shown of the name functions: how they are called and which runtime
operations give their results, as text or as JSON.
-/

namespace NodeNames

structure FunctionReport where
  name : String
  signature : String
  operations : List String

namespace FunctionReport

def ofFunction (config : Config) (function : NameFunction) : FunctionReport :=
  { name := function.render
    signature := function.render ++ "(node()?) as string"
    operations := function.finalOperations.map fun operation =>
      (operation.reference config).render }

/-- The reports on all functions in the standard configuration. -/
def all : List FunctionReport :=
  NameFunction.all.map (ofFunction {})

/-- The lines of a report: the signature and the operations. -/
def lines (report : FunctionReport) : List String :=
  report.signature :: report.operations.map ("  " ++ ·)

def renderText (reports : List FunctionReport) : String :=
  Text.trimEnd (String.join ((reports.flatMap lines).map (· ++ "\n")))

def renderJson (reports : List FunctionReport) : String :=
  Json.array 0 (reports.map fun report =>
    Json.object 1 [
      ("name", .text report.name),
      ("signature", .text report.signature),
      ("operations", .texts report.operations)])

end FunctionReport

end NodeNames
