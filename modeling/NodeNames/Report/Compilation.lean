import NodeNames.CompileUnit
import NodeNames.Report.Json
import NodeNames.Text.Cut
/-!
# Reports on compiled methods

What is shown of a method that has just been compiled, as text or as JSON.
-/

namespace NodeNames

structure CompilationReport where
  source : String
  function : String
  method : String
  resultType : String
  maxStack : Nat
  poolEntries : Nat
  /-- The instructions, with what their pool indices stand for. -/
  instructions : List String

namespace CompilationReport

def ofMethod (unit : CompileUnit) (method : CompiledMethod) : CompilationReport :=
  { source := method.source
    function := method.function.render
    method := method.name
    resultType := method.resultType.render
    maxStack := method.maxStack
    poolEntries := unit.classDraft.pool.size
    instructions := method.code.map fun instruction =>
      instruction.renderResolved unit.classDraft.pool }

/-- The instructions one a line, each after its position in four columns. -/
def instructionLines (report : CompilationReport) : List String :=
  report.instructions.mapIdx fun position instruction =>
    Text.alignRight 4 (toString position) ++ ": " ++ instruction

/-- The lines of the report: the call, the figures and the instructions. -/
def lines (report : CompilationReport) : List String :=
  (report.source ++ " -> " ++ report.resultType) ::
    (s!"method {report.method}, max stack {report.maxStack}, " ++
      s!"{report.poolEntries} pool entries") ::
    report.instructionLines

/-- The report as text, without blanks at its end. -/
def renderText (report : CompilationReport) : String :=
  Text.trimEnd (String.join (report.lines.map (· ++ "\n")))

def renderJson (report : CompilationReport) : String :=
  Json.object 0 [
    ("source", .text report.source),
    ("function", .text report.function),
    ("method", .text report.method),
    ("result_type", .text report.resultType),
    ("max_stack", .number report.maxStack),
    ("pool_entries", .number report.poolEntries),
    ("instructions", .texts report.instructions)]

end CompilationReport

end NodeNames
