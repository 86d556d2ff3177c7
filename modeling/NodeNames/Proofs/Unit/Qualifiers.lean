import NodeNames.Proofs.NameCall.Qualifiers
import NodeNames.Proofs.Unit.Independence
/-!
# Qualifiers in units

Qualifiers are a way of writing. Once its names are resolved, what an operation
does and answers depends on the namespaces and the local parts of the names, so
that units with other bindings and other qualifiers for the same namespaces
cannot be told apart.
-/

namespace NodeNames

open EmissionStep

/-- The method but for the text that it has been compiled from. -/
def CompiledMethod.withoutSource (method : CompiledMethod) : CompiledMethod :=
  { method with source := "" }

/-- What is seen of an answer: a part of it, or the code of the error. -/
def seen {Answer Part : Type} (part : Answer → Part) :
    Except CompileError Answer → Except ErrorCode Part
  | .ok answer => .ok (part answer)
  | .error error => .error error.code

/-- What an operation comes down to once its names have been resolved. -/
inductive ResolvedOperation where
  | declare (name : ExpandedName) (type : ValueType)
  | compile (call : NameCall)
deriving DecidableEq

/-- What an operation comes down to, without qualifiers, or why its names cannot be resolved. -/
def UnitOperation.resolved (config : Config) :
    UnitOperation → Except ErrorCode ResolvedOperation
  | declare name type =>
      seen (fun resolved => .declare resolved.expandedName type) (config.resolve name)
  | compile source => seen (fun call => .compile call.unqualified) (resolvedCall config source)
  | compileCall call _ => .ok (.compile call.unqualified)

/-- What is seen of an operation: its answer, and the constants and names that are there then. -/
structure Observation where
  answer : Except ErrorCode (Option CompiledMethod)
  pool : ConstantPool
  nodeTypes : NodeTypes

/-- What is seen of a journal entry; an error shows its code, and a method all but its source. -/
def JournalEntry.observation (entry : JournalEntry) : Observation :=
  { answer := seen (Option.map CompiledMethod.withoutSource) entry.answer
    pool := entry.after.classDraft.pool
    nodeTypes := entry.after.classDraft.nodeTypes }

namespace CompileUnit

/-- Units with the same constants and names that have started as many methods. -/
structure LooksLike (first second : CompileUnit) : Prop where
  pool : first.classDraft.pool = second.classDraft.pool
  types : first.classDraft.nodeTypes = second.classDraft.nodeTypes
  methodCount : first.methodCount = second.methodCount

/-- Results of compiling that differ in the source and the wording of an error at most. -/
structure SameResult
    (firstResult secondResult : EStateM.Result CompileError CompileUnit CompiledMethod) : Prop where
  answer : seen CompiledMethod.withoutSource (answerOf firstResult) =
    seen CompiledMethod.withoutSource (answerOf secondResult)
  looksLike : (leftBehind firstResult).LooksLike (leftBehind secondResult)

theorem totalWidth_congr {first second : List (QName × ValueType)}
    (same : variableTypes first = variableTypes second) : totalWidth first = totalWidth second := by
  induction first generalizing second with
  | nil =>
      cases second with
      | nil => rfl
      | cons entry others => cases same
  | cons entry others ih =>
      cases second with
      | nil => cases same
      | cons other rest =>
          simp only [variableTypes, List.map_cons, List.cons.injEq, Prod.mk.injEq] at same
          rw [totalWidth, totalWidth, same.1.2, ih same.2]

variable {first second : CompileUnit} {firstCall secondCall : NameCall}
  {firstSource secondSource : String}

section Finish

variable {firstSlots secondSlots : MethodDraft} {script : List EmissionStep}

/-- Calls with the same script are finished alike. -/
theorem finish_congr (alike : first.LooksLike second)
    (sameName : firstSlots.name = secondSlots.name) (sameCode : firstSlots.code = secondSlots.code)
    (sameFunction : firstCall.function = secondCall.function)
    (firstEmits : firstCall.emit ⟨first.classDraft, firstSlots⟩ =
      performAll script ⟨first.classDraft, firstSlots⟩)
    (secondEmits : secondCall.emit ⟨second.classDraft, secondSlots⟩ =
      performAll script ⟨second.classDraft, secondSlots⟩) :
    SameResult (finish firstSlots firstCall firstSource first.started)
      (finish secondSlots secondCall secondSource second.started) := by
  have sameEmission := @performAll_congr ⟨first.classDraft, firstSlots⟩
    ⟨second.classDraft, secondSlots⟩ ⟨alike.pool, alike.types, sameName, sameCode⟩ script
  have sameCount : first.started.methodCount = second.started.methodCount :=
    congrArg (· + 1) alike.methodCount
  rw [← firstEmits, ← secondEmits] at sameEmission
  generalize firstResult : firstCall.emit ⟨first.classDraft, firstSlots⟩ = firstOutcome
    at sameEmission
  generalize secondResult : secondCall.emit ⟨second.classDraft, secondSlots⟩ = secondOutcome
    at sameEmission
  cases sameEmission with
  | error error looks =>
      rw [finish, bind_of_eq_error (emitInto_of_error firstResult), finish,
        bind_of_eq_error (emitInto_of_error secondResult)]
      exact ⟨rfl, looks.pool, looks.types, sameCount⟩
  | @ok firstDraft secondDraft looks =>
      rw [finish, bind_of_eq_ok (emitInto_of_ok firstResult), finish,
        bind_of_eq_ok (emitInto_of_ok secondResult)]
      have sameVerdict : firstDraft.method.code.verify firstDraft.classDraft.pool =
          secondDraft.method.code.verify secondDraft.classDraft.pool := by
        rw [looks.code, looks.pool]
      cases verdict : firstDraft.method.code.verify firstDraft.classDraft.pool with
      | error error =>
          rw [bind_of_eq_error (verify_of_error verdict),
            bind_of_eq_error (verify_of_error (sameVerdict.symm.trans verdict))]
          exact ⟨rfl, looks.pool, looks.types, sameCount⟩
      | ok summary =>
          rw [bind_of_eq_ok (verify_of_ok verdict),
            bind_of_eq_ok (verify_of_ok (sameVerdict.symm.trans verdict))]
          refine ⟨congrArg Except.ok ?_, looks.pool, looks.types, sameCount⟩
          simp only [CompiledMethod.withoutSource, looks.name, looks.code, sameFunction]

end Finish

/-- Units that cannot be told apart, with bindings of their own for qualifiers. -/
structure Alike (config : Config) (firstBindings secondBindings : Std.TreeMap String String)
    (first second : CompileUnit) : Prop extends first.LooksLike second where
  firstDescribes : first.Describes (config.withNamespaces firstBindings) first.declared
  secondDescribes : second.Describes (config.withNamespaces secondBindings) second.declared
  declared : variableTypes first.declared = variableTypes second.declared

variable {config : Config} {firstBindings secondBindings : Std.TreeMap String String}

/-- The bindings of qualifiers play no part in the layout of a method. -/
theorem Started.of_withNamespaces {unit : CompileUnit} {bindings : Std.TreeMap String String}
    {declared : List (QName × ValueType)} {slots : MethodDraft}
    (isStarted : unit.Started (config.withNamespaces bindings) declared slots) :
    unit.Started config declared slots where
  name := isStarted.name
  code := isStarted.code
  reserves := ⟨isStarted.reserves.documentSlot, isStarted.reserves.contextNodeSlot⟩
  local? := isStarted.local?

theorem emit_of_describes {unit : CompileUnit} {bindings : Std.TreeMap String String}
    {declared : List (QName × ValueType)}
    (describes : unit.Describes (config.withNamespaces bindings) declared) (slots : MethodDraft)
    (call : NameCall) :
    call.emit ⟨unit.classDraft, slots⟩ =
      performAll (call.script config slots unit.classDraft.nodeTypes)
        ⟨unit.classDraft, slots⟩ := by
  rcases describes.pool with ⟨values, represents⟩
  have emission := @NameCall.emit_eq_performAll ⟨unit.classDraft, slots⟩ values represents call
  rwa [describes.sameConfig, NameCall.script_withNamespaces] at emission

/-- Checked calls that differ in qualifiers only have the same script. -/
theorem script_congr {firstSlots secondSlots : MethodDraft} {types : NodeTypes} {type : ValueType}
    (sameCall : firstCall.unqualified = secondCall.unqualified)
    (sameSlots : firstSlots.SameSlots secondSlots)
    (firstTyped : firstCall.operandType = some type)
    (secondTyped : secondCall.operandType = some type)
    (firstChecked : CheckedOperand firstSlots firstCall.operand type)
    (secondChecked : CheckedOperand secondSlots secondCall.operand type) :
    firstCall.script config firstSlots types = secondCall.script config secondSlots types := by
  calc
    firstCall.script config firstSlots types
        = firstCall.unqualified.script config firstSlots types :=
          (NameCall.script_unqualified firstTyped firstChecked).symm
    _ = secondCall.unqualified.script config secondSlots types := by
          rw [sameCall, NameCall.script_congr sameSlots]
    _ = secondCall.script config secondSlots types :=
          NameCall.script_unqualified secondTyped secondChecked

/-- Calls that differ in qualifiers only are compiled alike. -/
theorem compileCall_congr (alike : Alike config firstBindings secondBindings first second)
    (sameCall : firstCall.unqualified = secondCall.unqualified) :
    SameResult (compileCall firstCall firstSource first)
      (compileCall secondCall secondSource second) := by
  have sameOperand : firstCall.operand.map Expression.unqualified =
      secondCall.operand.map Expression.unqualified := congrArg NameCall.operand sameCall
  have sameFunction : firstCall.unqualified.function = secondCall.unqualified.function := by
    rw [sameCall]
  have sameType : operandType? (typeOf? second.declared) secondCall.operand =
      operandType? (typeOf? first.declared) firstCall.operand := by
    rw [← operandType?_unqualified (fun _ => rfl) secondCall.operand, ← sameOperand,
      operandType?_unqualified (fun _ => rfl), typeOf?_congr alike.declared]
  -- the second call takes the course of the first, since that is a matter of types and widths
  cases course_compileCall alike.firstDescribes firstCall firstSource with
  | undeclared name untyped fails =>
      rcases check_of_undeclared alike.secondDescribes (sameType.trans untyped) with
        ⟨other, refused⟩
      rw [fails, compileCall, bind_of_eq_error refused]
      exact ⟨rfl, alike.toLooksLike⟩
  | otherType type typed notNode fails =>
      have refused := check_of_type alike.secondDescribes (sameType.trans typed)
      rw [notNode, if_neg Bool.false_ne_true] at refused
      rw [fails, compileCall, bind_of_eq_error refused]
      exact ⟨rfl, alike.toLooksLike⟩
  | noRoom type name typed nodeLike full fails =>
      have checked := check_of_type alike.secondDescribes (sameType.trans typed)
      rw [nodeLike, if_pos rfl] at checked
      rw [totalWidth_congr alike.declared] at full
      rcases startMethod_of_no_room alike.secondDescribes full with ⟨other, refused⟩
      rw [fails, compileCall, bind_of_eq_ok checked, bind_of_eq_error refused]
      exact ⟨rfl, alike.pool, alike.types, congrArg (· + 1) alike.methodCount⟩
  | finished type slots typed nodeLike room isStarted checked finishes =>
      rw [totalWidth_congr alike.declared] at room
      rcases compileCall_of_room alike.secondDescribes secondSource (sameType.trans typed) nodeLike
        room with ⟨secondSlots, secondStarted, secondChecked, secondFinishes⟩
      have sameSlots := isStarted.of_withNamespaces.sameSlots alike.declared
        secondStarted.of_withNamespaces
      have sameName : slots.name = secondSlots.name := by
        rw [isStarted.name, secondStarted.name, alike.methodCount]
      have sameTyped : { firstCall with operandType := some type }.unqualified =
          { secondCall with operandType := some type }.unqualified :=
        congrArg (fun call => { call with operandType := some type }) sameCall
      have sameScript := @script_congr { firstCall with operandType := some type }
        { secondCall with operandType := some type } config slots secondSlots
        first.classDraft.nodeTypes type sameTyped sameSlots rfl rfl checked secondChecked
      have secondEmits := emit_of_describes alike.secondDescribes secondSlots
        { secondCall with operandType := some type }
      rw [← alike.types, ← sameScript] at secondEmits
      rw [finishes, secondFinishes]
      exact finish_congr alike.toLooksLike sameName (isStarted.code.trans secondStarted.code.symm)
        sameFunction (emit_of_describes alike.firstDescribes slots _) secondEmits

theorem seen_map_some {Answer Part : Type} (part : Answer → Part)
    (answer : Except CompileError Answer) :
    seen (Option.map part) (answer.map some) = (seen part answer).map some := by
  cases answer <;> rfl

section Operations

variable {unit : CompileUnit}

/-- What an operation does and answers, by what it comes down to. -/
def PerformsAs (unit : CompileUnit) (config : Config) (operation : UnitOperation) :
    Except ErrorCode ResolvedOperation → Prop
  | .error code =>
      ∃ error : CompileError, error.code = code ∧ operation.answer unit = .error error ∧
        operation.perform unit = unit
  | .ok (.declare name type) =>
      ∃ resolved : QName, resolved.expandedName = name ∧ operation.answer unit = .ok none ∧
        (operation.perform unit).LooksLike unit ∧
        (operation.perform unit).Describes config (redeclare unit.declared resolved type)
  | .ok (.compile call) =>
      ∃ (original : NameCall) (source : String), original.unqualified = call ∧
        operation.answer unit = (answerOf (compileCall original source unit)).map some ∧
        operation.perform unit = leftBehind (compileCall original source unit)

theorem performsAs_resolved (describes : unit.Describes config unit.declared)
    (operation : UnitOperation) : PerformsAs unit config operation (operation.resolved config) := by
  cases operation with
  | compileCall call source => exact ⟨call, source, rfl, rfl, rfl⟩
  | compile source =>
      rw [UnitOperation.resolved]
      cases resolves : resolvedCall config source with
      | error error =>
          have fails := compile_of_unresolved describes resolves
          refine ⟨error, rfl, ?_, ?_⟩
          · rw [UnitOperation.answer, fails]
            rfl
          · rw [UnitOperation.perform, fails]
            rfl
      | ok call =>
          have compiles := compile_of_resolvedCall describes resolves
          refine ⟨call, source, rfl, ?_, ?_⟩
          · rw [UnitOperation.answer, compiles]
          · rw [UnitOperation.perform, compiles]
  | declare name type =>
      rw [UnitOperation.resolved]
      cases resolves : config.resolve name with
      | error error =>
          have fails : declareVariable name type unit = .error error unit := by
            rw [declareVariable, describes.sameConfig, resolves]
          refine ⟨error, rfl, ?_, ?_⟩
          · rw [UnitOperation.answer, fails]
            rfl
          · rw [UnitOperation.perform, fails]
            rfl
      | ok resolved =>
          have declares : declareVariable name type unit = .ok () { unit with
              symbols := unit.symbols.declare resolved type
              declared := redeclare unit.declared resolved type } := by
            rw [declareVariable, describes.sameConfig, resolves]
          refine ⟨resolved, rfl, ?_, ?_, describes_declareVariable describes type resolves⟩
          · rw [UnitOperation.answer, declares]
            rfl
          · rw [UnitOperation.perform, declares]
            exact ⟨rfl, rfl, rfl⟩

end Operations

theorem variableTypes_redeclare (declared : List (QName × ValueType)) (name : QName)
    (type : ValueType) :
    variableTypes (redeclare declared name type) =
      ((variableTypes declared).filter fun entry => entry.1 ≠ name.expandedName) ++
        [(name.expandedName, type)] := by
  simp only [variableTypes, redeclare, List.map_append, List.filter_map, List.map_cons,
    List.map_nil]
  rfl

theorem Describes.self {unit : CompileUnit} {declared : List (QName × ValueType)}
    (describes : unit.Describes config declared) : unit.Describes config unit.declared := by
  rw [describes.sameDeclared]
  exact describes

/-- Operations that come down to the same show the same and leave units that stay alike. -/
theorem alike_perform (alike : Alike config firstBindings secondBindings first second)
    {firstOperation secondOperation : UnitOperation}
    (same : firstOperation.resolved (config.withNamespaces firstBindings) =
      secondOperation.resolved (config.withNamespaces secondBindings)) :
    (firstOperation.entry first).observation = (secondOperation.entry second).observation ∧
      Alike config firstBindings secondBindings (firstOperation.perform first)
        (secondOperation.perform second) := by
  have firstPerforms := performsAs_resolved alike.firstDescribes firstOperation
  have secondPerforms := performsAs_resolved alike.secondDescribes secondOperation
  rw [← same] at secondPerforms
  simp only [JournalEntry.observation, UnitOperation.entry, Observation.mk.injEq]
  cases isResolved : firstOperation.resolved (config.withNamespaces firstBindings) with
  | error code =>
      rw [isResolved] at firstPerforms secondPerforms
      rcases firstPerforms with ⟨firstError, firstCode, firstAnswer, firstUnchanged⟩
      rcases secondPerforms with ⟨secondError, secondCode, secondAnswer, secondUnchanged⟩
      rw [firstAnswer, secondAnswer, firstUnchanged, secondUnchanged]
      exact ⟨⟨congrArg Except.error (firstCode.trans secondCode.symm), alike.pool, alike.types⟩,
        alike⟩
  | ok resolved =>
      rw [isResolved] at firstPerforms secondPerforms
      cases resolved with
      | declare name type =>
          rcases firstPerforms with ⟨firstName, firstSame, firstAnswer, firstLooks, firstIs⟩
          rcases secondPerforms with ⟨secondName, secondSame, secondAnswer, secondLooks, secondIs⟩
          have looks : (firstOperation.perform first).LooksLike
              (secondOperation.perform second) :=
            ⟨firstLooks.pool.trans (alike.pool.trans secondLooks.pool.symm),
              firstLooks.types.trans (alike.types.trans secondLooks.types.symm),
              firstLooks.methodCount.trans (alike.methodCount.trans secondLooks.methodCount.symm)⟩
          refine ⟨⟨by rw [firstAnswer, secondAnswer], looks.pool, looks.types⟩, looks,
            firstIs.self, secondIs.self, ?_⟩
          rw [firstIs.sameDeclared, secondIs.sameDeclared, variableTypes_redeclare,
            variableTypes_redeclare, firstSame, secondSame, alike.declared]
      | compile call =>
          rcases firstPerforms with ⟨firstCall, firstSource, firstSame, firstAnswer, firstLeft⟩
          rcases secondPerforms with
            ⟨secondCall, secondSource, secondSame, secondAnswer, secondLeft⟩
          have sameResult := @compileCall_congr _ _ firstCall secondCall firstSource secondSource
            _ _ _ alike (firstSame.trans secondSame.symm)
          have firstIs := describes_compileCall alike.firstDescribes firstCall firstSource
          have secondIs := describes_compileCall alike.secondDescribes secondCall secondSource
          rw [firstAnswer, secondAnswer, firstLeft, secondLeft, seen_map_some, seen_map_some]
          refine ⟨⟨congrArg _ sameResult.answer, sameResult.looksLike.pool, sameResult.looksLike.types⟩,
            sameResult.looksLike, firstIs.self, secondIs.self, ?_⟩
          rw [firstIs.sameDeclared, secondIs.sameDeclared, alike.declared]

theorem observations_eq (alike : Alike config firstBindings secondBindings first second)
    {firstRun secondRun : List UnitOperation}
    (same : firstRun.map (UnitOperation.resolved (config.withNamespaces firstBindings)) =
      secondRun.map (UnitOperation.resolved (config.withNamespaces secondBindings))) :
    (first.journal firstRun).map JournalEntry.observation =
      (second.journal secondRun).map JournalEntry.observation := by
  induction firstRun generalizing first second secondRun with
  | nil =>
      cases secondRun with
      | nil => rfl
      | cons operation others => cases same
  | cons operation others ih =>
      cases secondRun with
      | nil => cases same
      | cons other rest =>
          rw [List.map_cons, List.map_cons, List.cons.injEq] at same
          rcases alike_perform alike same.1 with ⟨sameEntry, stillAlike⟩
          rw [journal, journal, List.map_cons, List.map_cons, sameEntry, ih stillAlike same.2]

/--
In configurations that differ in what qualifiers stand for at most, operations on new units that
come down to the same, one by one, with the same namespaces and local parts under whatever
qualifiers, cannot be told apart: they succeed with the same methods or fail with the same codes,
and after each of them the constants and the names are the same.
-/
theorem qualifiers_unobservable (config : Config)
    (firstBindings secondBindings : Std.TreeMap String String) (firstName secondName : String)
    (firstRun secondRun : List UnitOperation)
    (same : firstRun.map (UnitOperation.resolved (config.withNamespaces firstBindings)) =
      secondRun.map (UnitOperation.resolved (config.withNamespaces secondBindings))) :
    ((CompileUnit.new firstName (config.withNamespaces firstBindings)).journal firstRun).map
        JournalEntry.observation =
      ((CompileUnit.new secondName (config.withNamespaces secondBindings)).journal secondRun).map
        JournalEntry.observation := by
  apply observations_eq _ same
  exact
    { pool := rfl
      types := rfl
      methodCount := rfl
      firstDescribes := describes_new firstName _
      secondDescribes := describes_new secondName _
      declared := rfl }

/-- Two ways to write the same variable and the same name test, and two unbound qualifiers. -/
theorem qualifiers_unobservable_prefixed :
    ((CompileUnit.new "A" (({} : Config).withNamespaces
          (({} : Config).bindNamespace "p" "urn:x").namespaces)).journal
        [.declare (.ofText "p:v") .node, .compile "name($p:v)", .compile "name(child::p:a)",
          .compile "name($q:v)"]).map JournalEntry.observation =
      ((CompileUnit.new "B" (({} : Config).withNamespaces
          (({} : Config).bindNamespace "r" "urn:x").namespaces)).journal
        [.declare (.ofText "r:v") .node, .compile "name($r:v)", .compile "name(child::r:a)",
          .compile "name(s:a)"]).map JournalEntry.observation :=
  qualifiers_unobservable {} _ _ "A" "B" _ _ (by decide +kernel)

end CompileUnit

end NodeNames
