import NodeNames.Proofs.Unit.Phases
/-!
# Histories

A unit is reached from an empty one by declaring variables and compiling calls,
with success or without. What its history says about it is which variables are
declared, each with the type and at the place of its latest declaration.
-/

namespace NodeNames

inductive UnitOperation where
  | declare (name : QName) (type : ValueType)
  | compile (source : String)
  | compileCall (call : NameCall) (source : String)

namespace UnitOperation

def perform (unit : CompileUnit) : UnitOperation → CompileUnit
  | declare name type => leftBehind (CompileUnit.declareVariable name type unit)
  | compile source => leftBehind (CompileUnit.compile source unit)
  | compileCall call source => leftBehind (CompileUnit.compileCall call source unit)

/-- The declaration that an operation makes, unless its qualifier is not bound. -/
def declaration? (config : Config) : UnitOperation → Option (QName × ValueType)
  | declare name type =>
      match config.resolve name with
      | .ok resolved => some (resolved, type)
      | .error _ => none
  | compile _ | compileCall _ _ => none

end UnitOperation

/-- The declarations that no later one replaces. -/
def latestDeclarations : List (QName × ValueType) → List (QName × ValueType)
  | [] => []
  | entry :: later =>
      if entry.1.expandedName ∈ variableNames later then latestDeclarations later
      else entry :: latestDeclarations later

def declaredVariables (config : Config) (history : List UnitOperation) :
    List (QName × ValueType) :=
  latestDeclarations (history.filterMap (UnitOperation.declaration? config))

namespace CompileUnit

def after (className : String) (config : Config) (history : List UnitOperation) : CompileUnit :=
  history.foldl UnitOperation.perform (CompileUnit.new className config)

end CompileUnit

section Declarations

/-- Of declarations that are followed by others, those stay that no later one replaces. -/
theorem latestDeclarations_append (first second : List (QName × ValueType)) :
    latestDeclarations (first ++ second) =
      (latestDeclarations first).filter (fun entry => entry.1.expandedName ∉ variableNames second) ++
        latestDeclarations second := by
  induction first with
  | nil => rfl
  | cons entry later ih =>
      rw [List.cons_append, latestDeclarations, latestDeclarations, ih, variableNames_append]
      by_cases replaced : entry.1.expandedName ∈ variableNames later
      · rw [if_pos replaced, if_pos (List.mem_append_left _ replaced)]
      · by_cases replacedLast : entry.1.expandedName ∈ variableNames second
        · simp [replaced, replacedLast]
        · simp [replaced, replacedLast]

theorem latestDeclarations_concat (entries : List (QName × ValueType)) (name : QName)
    (type : ValueType) :
    latestDeclarations (entries ++ [(name, type)]) =
      CompileUnit.redeclare (latestDeclarations entries) name type := by
  rw [latestDeclarations_append]
  simp [CompileUnit.redeclare, latestDeclarations, variableNames]

theorem typeOf?_redeclare (declared : List (QName × ValueType)) (name other : QName)
    (type : ValueType) :
    typeOf? (CompileUnit.redeclare declared name type) other =
      if name.expandedName = other.expandedName then some type else typeOf? declared other := by
  induction declared with
  | nil => exact typeOf?_cons (name, type) [] other
  | cons entry others ih =>
      by_cases removed : entry.1.expandedName = name.expandedName
      · have redeclared : CompileUnit.redeclare (entry :: others) name type =
            CompileUnit.redeclare others name type := by
          simp [CompileUnit.redeclare, removed]
        rw [redeclared, ih, typeOf?_cons, removed]
        split_ifs <;> rfl
      · have redeclared : CompileUnit.redeclare (entry :: others) name type =
            entry :: CompileUnit.redeclare others name type := by
          simp [CompileUnit.redeclare, removed]
        rw [redeclared, typeOf?_cons, typeOf?_cons, ih]
        split_ifs with found same
        · exact absurd (found.trans same.symm) removed
        · rfl
        · rfl
        · rfl

theorem nodup_redeclare {declared : List (QName × ValueType)}
    (distinct : (variableNames declared).Nodup) (name : QName) (type : ValueType) :
    (variableNames (CompileUnit.redeclare declared name type)).Nodup := by
  have kept : (variableNames (declared.filter fun entry =>
      entry.1.expandedName ≠ name.expandedName)).Nodup :=
    distinct.sublist (List.filter_sublist.map _)
  rw [variableNames] at kept
  simp only [variableNames, CompileUnit.redeclare, List.map_append, List.map_cons, List.map_nil]
  refine List.nodup_append.mpr ⟨kept, by simp, ?_⟩
  intro known isKnown added isAdded same
  rcases List.mem_map.mp isKnown with ⟨entry, isKept, rfl⟩
  rw [List.mem_singleton] at isAdded
  exact absurd (same.trans isAdded) (by simpa using (List.mem_filter.mp isKept).2)

end Declarations

namespace CompileUnit

variable {unit : CompileUnit} {config : Config} {declared : List (QName × ValueType)}

theorem describes_new (className : String) (config : Config) :
    (CompileUnit.new className config).Describes config [] where
  sameConfig := rfl
  sameDeclared := rfl
  symbols _ := rfl
  distinct := List.nodup_nil
  limit := rfl
  pool := ⟨[], ConstantPool.represents_withLimit _⟩
  types := Interner.consistent_empty

theorem describes_declareVariable (describes : unit.Describes config declared) {name : QName}
    {resolved : QName} (type : ValueType) (resolves : config.resolve name = .ok resolved) :
    (leftBehind (declareVariable name type unit)).Describes config
      (redeclare declared resolved type) := by
  have declares : declareVariable name type unit = .ok () { unit with
      symbols := unit.symbols.declare resolved type
      declared := redeclare unit.declared resolved type } := by
    rw [declareVariable, describes.sameConfig, resolves]
  rw [declares]
  exact
    { sameConfig := describes.sameConfig
      sameDeclared := congrArg (redeclare · resolved type) describes.sameDeclared
      symbols := by
        intro other
        rw [typeOf?_redeclare, ← describes.symbols]
        exact lookup_replace _ _ _ _
      distinct := nodup_redeclare describes.distinct resolved type
      limit := describes.limit
      pool := describes.pool
      types := describes.types }

theorem describes_compileCall (describes : unit.Describes config declared) (call : NameCall)
    (source : String) :
    (leftBehind (compileCall call source unit)).Describes config declared :=
  leftBehind_compileCall (motive := fun later => later.Describes config declared) describes
    describes describes.started describes.emitted call source

theorem describes_compile (describes : unit.Describes config declared) (source : String) :
    (leftBehind (compile source unit)).Describes config declared := by
  cases resolved : (FunctionCall.ofText source).bind fun call => call.resolve config with
  | ok call =>
      have resolves : resolveCall source unit = .ok call unit := by
        rw [resolveCall, describes.sameConfig, resolved]
      rw [compile, bind_of_eq_ok resolves]
      exact describes_compileCall describes call source
  | error error =>
      have refused : resolveCall source unit = .error error unit := by
        rw [resolveCall, describes.sameConfig, resolved]
      rw [compile, bind_of_eq_error refused]
      exact describes

/-- An operation changes the description of a unit by the declaration that it makes. -/
theorem describes_perform {declarations : List (QName × ValueType)}
    (describes : unit.Describes config (latestDeclarations declarations))
    (operation : UnitOperation) :
    (operation.perform unit).Describes config
      (latestDeclarations (declarations ++ (operation.declaration? config).toList)) := by
  cases operation with
  | declare name type =>
      cases resolves : config.resolve name with
      | ok resolved =>
          have declares := describes_declareVariable describes type resolves
          rw [← latestDeclarations_concat] at declares
          rw [UnitOperation.declaration?, resolves]
          exact declares
      | error error =>
          have refused : declareVariable name type unit = .error error unit := by
            rw [declareVariable, describes.sameConfig, resolves]
          rw [UnitOperation.declaration?, resolves, UnitOperation.perform, refused]
          rw [Option.toList_none, List.append_nil]
          exact describes
  | compile source =>
      rw [UnitOperation.declaration?, Option.toList_none, List.append_nil]
      exact describes_compile describes source
  | compileCall call source =>
      rw [UnitOperation.declaration?, Option.toList_none, List.append_nil]
      exact describes_compileCall describes call source

theorem describes_foldl {declarations : List (QName × ValueType)}
    (describes : unit.Describes config (latestDeclarations declarations))
    (history : List UnitOperation) :
    (history.foldl UnitOperation.perform unit).Describes config (latestDeclarations
      (declarations ++ history.filterMap (UnitOperation.declaration? config))) := by
  induction history generalizing unit declarations with
  | nil => simpa using describes
  | cons operation later ih =>
      have last := ih (describes_perform describes operation)
      rw [List.append_assoc] at last
      rw [List.foldl_cons]
      cases declares : operation.declaration? config with
      | none => simpa [declares] using last
      | some entry => simpa [declares] using last

/-- Every unit is described by its configuration and the variables that its history declares. -/
theorem describes_after (className : String) (config : Config) (history : List UnitOperation) :
    (after className config history).Describes config (declaredVariables config history) :=
  @describes_foldl _ _ [] (describes_new className config) history

end CompileUnit

end NodeNames
