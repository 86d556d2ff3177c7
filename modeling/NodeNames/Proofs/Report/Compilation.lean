import NodeNames.CommandLine.Execution
import NodeNames.Proofs.Code.ListingEnd
import NodeNames.Proofs.Unit.Correctness
import NodeNames.Proofs.Unit.Invisibility
/-!
# Reports on compiled methods

A report as text is a line on the call, a line of figures and the instructions of
the method. It has lines of its own for the instructions, which are those of the
listing, and blanks at the end of the whole text are cut off. Since a compiled
method has code, and the listing of verified code ends visibly, all that is cut
off is the end of the last line.
-/

namespace NodeNames

open Text

/-- Lines with an end each are separated lines with an end after the last one. -/
theorem join_map_newline {lines : List String} (nonempty : lines ≠ []) :
    String.join (lines.map (· ++ "\n")) = String.intercalate "\n" lines ++ "\n" := by
  induction lines with
  | nil => exact absurd rfl nonempty
  | cons first others ih =>
      rw [List.map_cons, String.join_cons]
      cases others with
      | nil => simp
      | cons second rest =>
          rw [ih (List.cons_ne_nil second rest), String.intercalate_cons_cons]
          simp only [String.append_assoc]

namespace CompilationReport

variable {unit : CompileUnit} {method : CompiledMethod}

/-- What a report says before the listing, with the ends of its two lines. -/
def heading (report : CompilationReport) : String :=
  report.source ++ " -> " ++ report.resultType ++ "\n" ++
    (s!"method {report.method}, max stack {report.maxStack}, " ++
      s!"{report.poolEntries} pool entries") ++ "\n"

theorem heading_ofMethod (isString : method.resultType = .string) :
    (ofMethod unit method).heading =
      method.source ++ " -> string" ++ "\n" ++
        (s!"method {method.name}, max stack {method.maxStack}, " ++
          s!"{unit.classDraft.pool.size} pool entries") ++ "\n" := by
  have isLine : method.source ++ " -> " ++ ValueType.string.render =
      method.source ++ " -> string" := by
    rw [String.append_assoc]
    rfl
  simp only [heading, ofMethod, isString]
  rw [isLine]

/-- The report numbers and resolves the instructions of a method as its listing does. -/
theorem instructionLines_ofMethod (unit : CompileUnit) (method : CompiledMethod) :
    (ofMethod unit method).instructionLines =
      Code.listingLines (method.code.renderResolved unit.classDraft.pool) := by
  rw [instructionLines, List.mapIdx_eq_zipIdx_map]
  rfl

theorem join_lines_ofMethod (nonempty : method.code ≠ []) :
    String.join ((ofMethod unit method).lines.map (· ++ "\n")) =
      (ofMethod unit method).heading ++ unit.listing method ++ "\n" := by
  have listed : Code.listingLines (method.code.renderResolved unit.classDraft.pool) ≠ [] := by
    simpa [Code.listingLines, Code.renderResolved] using nonempty
  rw [lines, instructionLines_ofMethod, List.map_cons, List.map_cons, String.join_cons,
    String.join_cons, join_map_newline listed]
  simp only [heading, CompileUnit.listing, Code.listing, ofMethod, String.append_assoc]

theorem renderText_ofMethod {summary : StackSummary} (nonempty : method.code ≠ [])
    (verified : method.code.verify unit.classDraft.pool = .ok summary) :
    (ofMethod unit method).renderText =
      (ofMethod unit method).heading ++ unit.listing method := by
  rw [renderText, join_lines_ofMethod nonempty]
  exact trimEnd_append_newline ((Code.endsVisibly_listing verified nonempty).append _)

end CompilationReport

namespace CompileUnit

variable {unit later : CompileUnit} {config : Config} {declared : List (QName × ValueType)}
  {source : String} {method : CompiledMethod}

/-- A compiled method has the source and a text as its result, and its code is verified. -/
theorem verified_of_compile (describes : unit.Describes config declared)
    (compiled : compile source unit = .ok method later) :
    method.source = source ∧ method.resultType = .string ∧
      method.code.verify later.classDraft.pool = .ok ⟨method.maxStack, 1⟩ := by
  rcases compileCall_of_compile describes compiled with ⟨call, _, callCompiled⟩
  rcases compiled_of_compileCall describes callCompiled with
    ⟨type, slots, _, _, _, _, checked, isCompiled⟩
  have verified := Code.verify_of_climbs isCompiled.decode? (isCompiled.climbs rfl checked)
  exact ⟨congrArg CompiledMethod.source isCompiled.isMethod,
    congrArg CompiledMethod.resultType isCompiled.isMethod, verified⟩

/-- Code that leaves something on the stack is not empty. -/
theorem code_ne_nil_of_compile (describes : unit.Describes config declared)
    (compiled : compile source unit = .ok method later) : method.code ≠ [] := by
  intro empty
  have verified := (verified_of_compile describes compiled).2.2
  rw [empty] at verified
  cases congrArg StackSummary.finalDepth (Except.ok.inj verified)

/-- Declarations with the names as they are written, as operations on a unit. -/
def declarationsOf (entries : List (String × ValueType)) : List UnitOperation :=
  entries.map fun entry => .declare (QName.ofText entry.1) entry.2

/-- Variables that have been declared one after the other make a longer history. -/
theorem after_of_forM_declareVariable {className : String} {history : List UnitOperation}
    {entries : List (String × ValueType)}
    (declares : (entries.forM fun entry => declareVariable (QName.ofText entry.1) entry.2)
      (after className config history) = .ok () later) :
    later = after className config (history ++ declarationsOf entries) := by
  induction entries generalizing history with
  | nil =>
      cases declares
      simp [declarationsOf]
  | cons entry others ih =>
      rcases exists_of_bind_eq_ok declares with ⟨_, between, first, rest⟩
      have isBetween : between = after className config
          (history ++ [.declare (QName.ofText entry.1) entry.2]) := by
        rw [← perform_after]
        exact (congrArg leftBehind first).symm
      rw [isBetween] at rest
      rw [ih rest, List.append_assoc]
      rfl

end CompileUnit

namespace CompileRequest

variable {request : CompileRequest} {method : CompiledMethod} {unit : CompileUnit}

/-- The call of a request is compiled when the variables have been declared. -/
theorem compile_of_ok {className : String} {config : Config}
    (compiled : request.compile (.new className config) = .ok method unit) :
    CompileUnit.compile request.call (CompileUnit.after className config
      (CompileUnit.declarationsOf request.declarations)) = .ok method unit := by
  rcases exists_of_bind_eq_ok compiled with ⟨_, between, declares, succeeds⟩
  have isBetween : between = CompileUnit.after className config
      ([] ++ CompileUnit.declarationsOf request.declarations) :=
    CompileUnit.after_of_forM_declareVariable declares
  rwa [isBetween] at succeeds

theorem execute_of_ok (isText : request.format = .text)
    (compiled : request.compile (.new CompileUnit.defaultClassName request.config) =
      .ok method unit) :
    (Command.compile request).execute = .ok (CompilationReport.ofMethod unit method).renderText := by
  rw [Command.execute, report, compiled, ok_bind, isText]
  rfl

theorem execute_of_error {error : CompileError}
    (fails : request.compile (.new CompileUnit.defaultClassName request.config) =
      .error error unit) :
    (Command.compile request).execute = .error error := by
  rw [Command.execute, report, fails, error_bind]

/--
A command to compile a call puts out text exactly if the call is compiled after the variables have
been declared. The text is the call with the type of its result, the figures of the method and of
the pool, and then the listing of the method. Of the lines of the report, nothing but the end of the
last one has been cut off.
-/
theorem execute_text_eq_ok_iff (call : String) (declarations : List (String × ValueType))
    (namespaces : List (String × String)) (output : String) :
    let request : CompileRequest := { call, declarations, namespaces, format := .text }
    (Command.compile request).execute = .ok output ↔
      ∃ method unit,
        request.compile (.new CompileUnit.defaultClassName request.config) = .ok method unit ∧
          output =
            call ++ " -> string" ++ "\n" ++
              (s!"method {method.name}, max stack {method.maxStack}, " ++
                s!"{unit.classDraft.pool.size} pool entries") ++ "\n" ++
              unit.listing method ∧
          String.join ((CompilationReport.ofMethod unit method).lines.map (· ++ "\n")) =
            output ++ "\n" := by
  intro request
  cases result : request.compile (.new CompileUnit.defaultClassName request.config) with
  | error error unit =>
      rw [execute_of_error result]
      simp
  | ok method unit =>
      have describes := CompileUnit.describes_after CompileUnit.defaultClassName request.config
        (CompileUnit.declarationsOf request.declarations)
      have compiled := compile_of_ok result
      have nonempty := CompileUnit.code_ne_nil_of_compile describes compiled
      rcases CompileUnit.verified_of_compile describes compiled with
        ⟨isSource, isString, verified⟩
      have isHeading := @CompilationReport.heading_ofMethod unit method isString
      rw [isSource] at isHeading
      rw [execute_of_ok rfl result, CompilationReport.renderText_ofMethod nonempty verified,
        isHeading]
      constructor
      · intro isOutput
        cases isOutput
        refine ⟨method, unit, rfl, rfl, ?_⟩
        rw [CompilationReport.join_lines_ofMethod nonempty, isHeading]
      · rintro ⟨_, _, same, rfl, _⟩
        cases same
        rfl

end CompileRequest

end NodeNames
