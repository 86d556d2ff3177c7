import NodeNames.CommandLine.Basic
import NodeNames.Report.Compilation
import NodeNames.Report.Function
/-!
# Executing commands

The text that a command puts out.
-/

namespace NodeNames

namespace CompileRequest

/-- The settings of a request: its namespaces are bound in order. -/
def config (request : CompileRequest) : Config :=
  request.namespaces.foldl (fun config pair => config.bindNamespace pair.1 pair.2) {}

/-- Declares the variables of a request in order and compiles its call. -/
def compile (request : CompileRequest) : UnitAction CompiledMethod := do
  request.declarations.forM fun declared =>
    CompileUnit.declareVariable (QName.ofText declared.1) declared.2
  CompileUnit.compile request.call

def report (request : CompileRequest) : Except CompileError CompilationReport :=
  match request.compile (.new CompileUnit.defaultClassName request.config) with
  | .ok method unit => .ok (.ofMethod unit method)
  | .error error _ => .error error

end CompileRequest

def Command.execute : Command → Except CompileError String
  | compile request => do
      let report ← request.report
      return match request.format with
        | .text => report.renderText
        | .json => report.renderJson
  | functions format =>
      return match format with
        | .text => FunctionReport.renderText FunctionReport.all
        | .json => FunctionReport.renderJson FunctionReport.all

end NodeNames
