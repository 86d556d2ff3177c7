import NodeNames.Proofs.Code.Reachability
import NodeNames.Proofs.NameCall.Steps
import NodeNames.Proofs.NodeTypes
import NodeNames.Proofs.Unit.Growth
/-!
# No orphans

References are interned apart from the instructions that use them, some of them
before the operand of a call and some where they are used. As long as no code
generation fails, nothing is left over all the same: a unit has exactly the
constants that the code of its methods refers to and the names that its compiled
calls test for.
-/

namespace NodeNames

open ConstantValue EmissionStep RuntimeOperation

/-- The keys of the nodes that the name test of a call selects, if it has one. -/
def NameCall.nameKeys (call : NameCall) : List String :=
  match call.operand with
  | some (.step { axis, test := .name name }) => [NodeTypes.keyOf axis name]
  | _ => []

namespace JournalEntry

/-- The method that an operation has answered. -/
def method? (entry : JournalEntry) : Option CompiledMethod :=
  match entry.answer with
  | .ok method? => method?
  | .error _ => none

/-- The keys of the name tests of a call that has been compiled. -/
def nameKeys (config : Config) (entry : JournalEntry) : List String :=
  match entry.method?, entry.operation.call? config with
  | some _, some call => call.nameKeys
  | _, _ => []

/-- Whether the operation has failed in code generation. -/
def failsInternally (entry : JournalEntry) : Bool :=
  match entry.answer with
  | .ok _ => false
  | .error error => error.code.isInternal

end JournalEntry

/-- The methods that operations have answered, one after the other. -/
def compiledMethods (journal : List JournalEntry) : List CompiledMethod :=
  journal.filterMap JournalEntry.method?

section Names

variable {config : Config} {slots : MethodDraft} {types : NodeTypes}

theorem NameCall.names_script (consistent : types.Consistent) {call : NameCall}
    (checked : call.operandType ≠ none) {keys : List String} (names : types.names = keys.eraseDups) :
    ((call.script config slots types).foldl typesAfter types).names =
      (keys ++ call.nameKeys).eraseDups := by
  rw [NameCall.foldl_typesAfter_script call checked, nameKeys]
  rcases call.operand with _ | expression
  · simpa using names
  · cases expression with
    | contextNode | variableReference name | literal value =>
        simpa [Expression.registrations] using names
    | step selected =>
        rcases selected with ⟨axis, test⟩
        cases test with
        | anyNode | kind kind | wildcard =>
            simpa [Expression.registrations, Step.registrations] using names
        | name name =>
            have registered := NodeTypes.names_register consistent (NodeTypes.keyOf axis name)
            rw [names] at registered
            rw [eraseDups_append_singleton]
            exact registered

end Names

section Constants

variable {config : Config} {slots : MethodDraft} {types : NodeTypes}

/-- What the steps of a checked call want is wanted by the instructions among them. -/
theorem NameCall.exists_mem_wanted {call : NameCall} {type : ValueType}
    (known : call.operandType = some type) {step : EmissionStep}
    (isStep : step ∈ call.script config slots types) {value : ConstantValue}
    (isWanted : value ∈ step.wanted) :
    ∃ instruction ∈ plan (call.script config slots types), value ∈ instruction.wanted := by
  have planned {instruction : DecodedInstruction}
      (isInside : .append instruction ∈ call.script config slots types) :
      instruction ∈ plan (call.script config slots types) :=
    List.mem_filterMap.mpr ⟨_, isInside, rfl⟩
  cases call.regular_script step isStep with
  | fail error => cases isWanted
  | register key => cases isWanted
  | loadReference slot | loadInteger slot | loadReal slot | pushInteger value | pushText text =>
      exact ⟨_, planned isStep, isWanted⟩
  | invoke isOperation => exact ⟨_, planned isStep, isWanted⟩
  | @prepare operation isPrepared =>
      -- what is prepared before the operand is invoked after it
      have invoked : .append (operation.invocation config) ∈ call.script config slots types := by
        simp only [script, known, List.mem_append]
        exact .inr (.inr (List.mem_map.mpr ⟨operation, isPrepared, rfl⟩))
      refine ⟨_, planned invoked, ?_⟩
      rw [wanted_invocation]
      exact isWanted

theorem method_mem_wanted_append_iff {instruction : DecodedInstruction}
    {reference : MethodReference} :
    method reference ∈ (EmissionStep.append instruction).wanted ↔
      instruction.constant? = some (method reference) :=
  DecodedInstruction.method_mem_wanted_iff

/-- The steps of a call want no methods but operations. -/
theorem NameCall.operation_of_mem_wanted {call : NameCall} {step : EmissionStep}
    (isStep : step ∈ call.script config slots types) {reference : MethodReference}
    (isWanted : method reference ∈ step.wanted) :
    ∃ operation ∈ all, reference = operation.reference config := by
  cases call.regular_script step isStep with
  | fail error => cases isWanted
  | register key => cases isWanted
  | loadReference slot | loadInteger slot | loadReal slot | pushText text =>
      rw [method_mem_wanted_append_iff] at isWanted
      cases isWanted
  | pushInteger value =>
      rw [method_mem_wanted_append_iff, DecodedInstruction.constant?] at isWanted
      split_ifs at isWanted
      cases isWanted
  | @invoke operation isOperation =>
      rw [method_mem_wanted_append_iff, constant?_invocation, Option.some.injEq,
        ConstantValue.method.injEq] at isWanted
      exact ⟨operation, isOperation, isWanted.symm⟩
  | @prepare operation isPrepared =>
      have isReference : reference = operation.reference config := by
        simpa [EmissionStep.wanted, constituents] using isWanted
      exact ⟨operation, (NameFunction.result_of_mem_finalOperations isPrepared).1, isReference⟩

theorem mem_needs_iff {steps : List EmissionStep} (sound : firstFault? steps = none)
    {value : ConstantValue} : value ∈ needs steps ↔ ∃ step ∈ steps, value ∈ step.wanted := by
  rw [needs_of_sound sound, List.mem_flatMap]

end Constants

namespace CompileUnit

variable {unit later : CompileUnit} {config : Config} {declared : List (QName × ValueType)}
  {code : Code} {keys : List String}

/-- A unit without orphans, for code that has been emitted and keys that have been tested for. -/
structure Tidy (unit : CompileUnit) (config : Config) (code : Code) (keys : List String) : Prop where
  fills : ∃ plan values, code.Fills unit.classDraft.pool plan values ∧
    ∀ reference, method reference ∈ values → ∃ operation ∈ all, reference = operation.reference config
  names : unit.classDraft.nodeTypes.names = keys.eraseDups

theorem tidy_new (className : String) (config : Config) :
    (CompileUnit.new className config).Tidy config [] [] where
  fills := by
    refine ⟨[], [], ⟨ConstantPool.represents_withLimit _, rfl, by simp⟩, by simp⟩
  names := rfl

theorem name_injective_of_mem_all : ∀ first ∈ all, ∀ second ∈ all, first.name = second.name →
    first = second := by
  decide

section Compiling

variable {call : NameCall} {source : String} {method : CompiledMethod}

/-- The constants of a unit after a call has been compiled. -/
theorem represents_of_finish (describes : unit.Describes config declared) {slots : MethodDraft}
    {values : List ConstantValue} (represents : unit.classDraft.pool.Represents values)
    (finishes : finish slots call source unit.started = .ok method later) :
    later.classDraft.pool.Represents (absorb unit.classDraft.pool.limit values
      (needs (call.script config slots unit.classDraft.nodeTypes))).1 := by
  have isLater := @leftBehind_finish unit slots call source
  rw [finishes] at isLater
  have emission := @NameCall.emit_eq_performAll ⟨unit.classDraft, slots⟩ values represents call
  have continues := @continues_performAll ⟨unit.classDraft, slots⟩ values represents
    (call.script unit.classDraft.config slots unit.classDraft.nodeTypes)
  rw [← emission, describes.sameConfig] at continues
  rw [show later = unit.emitted slots call from isLater]
  exact continues.represents

/-- A compiled method leaves no orphans where there have been none. -/
theorem fills_of_compiled {slots : MethodDraft} {planned : List DecodedInstruction}
    {values : List ConstantValue} {type : ValueType} (known : call.operandType = some type)
    (fills : code.Fills unit.classDraft.pool planned values)
    (compiled : unit.Compiled config slots call source method later)
    (represents : later.classDraft.pool.Represents (absorb unit.classDraft.pool.limit values
      (needs (call.script config slots unit.classDraft.nodeTypes))).1) :
    Code.Fills (code ++ method.code) later.classDraft.pool
      (planned ++ plan (call.script config slots unit.classDraft.nodeTypes))
      (absorb unit.classDraft.pool.limit values
        (needs (call.script config slots unit.classDraft.nodeTypes))).1 := by
  rcases compiled.encoded with ⟨held, alsoRepresents, provided, encoded⟩
  rw [← represents.unique alsoRepresents] at provided encoded
  have longer := prefix_absorb unit.classDraft.pool.limit values
    (needs (call.script config slots unit.classDraft.nodeTypes))
  rw [encoded]
  apply fills.append represents longer
  intro value
  constructor
  · intro isHeld
    rcases of_mem_absorb isHeld with old | asked
    · exact .inl old
    · rcases (mem_needs_iff compiled.sound).mp asked with ⟨step, isStep, isWanted⟩
      exact .inr (NameCall.exists_mem_wanted known isStep isWanted)
  · rintro (old | ⟨instruction, isPlanned, isWanted⟩)
    · exact longer.subset old
    · rcases List.mem_filterMap.mp isPlanned with ⟨step, isStep, isInstruction⟩
      refine provided.constants step isStep value ?_
      cases step with
      | append other =>
          cases isInstruction
          exact isWanted
      | fail error | prepare reference | register key => cases isInstruction

/-- Compiling a call adds what its code wants and registers what the call tests for. -/
theorem tidy_compileCall (describes : unit.Describes config declared)
    (tidy : unit.Tidy config code keys)
    (succeeds : compileCall call source unit = .ok method later) :
    later.Tidy config (code ++ method.code) (keys ++ call.nameKeys) := by
  rcases tidy.fills with ⟨planned, values, fills, operations⟩
  -- a call that is not finished is not answered with a method
  cases course_compileCall describes call source with
  | undeclared name untyped fails =>
      rw [succeeds] at fails
      cases fails
  | otherType type typed notNode fails =>
      rw [succeeds] at fails
      cases fails
  | noRoom type name typed nodeLike full fails =>
      rw [succeeds] at fails
      cases fails
  | finished type slots typed nodeLike room isStarted checked finishes =>
      have compiled := @finish_outcome _ _ _ describes _ isStarted
        { call with operandType := some type } type rfl checked source
      rw [succeeds] at finishes
      rw [← finishes] at compiled
      have represents := represents_of_finish describes fills.represents finishes.symm
      refine ⟨⟨_, _, fills_of_compiled rfl fills compiled represents, ?_⟩, ?_⟩
      · intro reference isHeld
        rcases of_mem_absorb isHeld with old | asked
        · exact operations reference old
        · rcases (mem_needs_iff compiled.sound).mp asked with ⟨step, isStep, isWanted⟩
          exact NameCall.operation_of_mem_wanted isStep isWanted
      · rw [compiled.types]
        exact NameCall.names_script describes.types (by simp) tidy.names

end Compiling

section Operations

/-- An operation that answers no method and does nothing to the class leaves no orphans. -/
theorem tidy_of_unchanged (tidy : unit.Tidy config code keys) {operation : UnitOperation}
    (silent : (operation.entry unit).method? = none)
    (sameDraft : (operation.perform unit).classDraft = unit.classDraft) :
    (operation.perform unit).Tidy config
      (code ++ (compiledMethods [operation.entry unit]).flatMap CompiledMethod.code)
      (keys ++ (operation.entry unit).nameKeys config) := by
  have noCode : compiledMethods [operation.entry unit] = [] := by
    simp [compiledMethods, silent]
  have noKeys : (operation.entry unit).nameKeys config = [] := by
    rw [JournalEntry.nameKeys, silent]
  rw [noCode, noKeys, List.flatMap_nil, List.append_nil, List.append_nil]
  exact ⟨sameDraft ▸ tidy.fills, sameDraft ▸ tidy.names⟩

theorem tidy_of_compiled (describes : unit.Describes config declared)
    (tidy : unit.Tidy config code keys) {operation : UnitOperation} {call : NameCall}
    {source : String} {method : CompiledMethod} (isMethod : (operation.entry unit).method? = some method)
    (isCall : operation.call? config = some call)
    (succeeds : compileCall call source unit = .ok method (operation.perform unit)) :
    (operation.perform unit).Tidy config
      (code ++ (compiledMethods [operation.entry unit]).flatMap CompiledMethod.code)
      (keys ++ (operation.entry unit).nameKeys config) := by
  have itsCode : (compiledMethods [operation.entry unit]).flatMap CompiledMethod.code =
      method.code := by
    simp [compiledMethods, isMethod]
  have itsKeys : (operation.entry unit).nameKeys config = call.nameKeys := by
    rw [JournalEntry.nameKeys, isMethod]
    rw [show (operation.entry unit).operation.call? config = some call from isCall]
  rw [itsCode, itsKeys]
  exact tidy_compileCall describes tidy succeeds

/-- An operation that does not fail in code generation leaves no orphans. -/
theorem tidy_perform (describes : unit.Describes config declared)
    (tidy : unit.Tidy config code keys) {operation : UnitOperation}
    (sound : (operation.entry unit).failsInternally = false) :
    (operation.perform unit).Tidy config
      (code ++ (compiledMethods [operation.entry unit]).flatMap CompiledMethod.code)
      (keys ++ (operation.entry unit).nameKeys config) := by
  cases answered : operation.answer unit with
  | error error =>
      have refused : error.code.isInternal = false := by
        rw [JournalEntry.failsInternally, UnitOperation.entry, answered] at sound
        exact sound
      have silent : (operation.entry unit).method? = none := by
        rw [JournalEntry.method?, UnitOperation.entry, answered]
      exact tidy_of_unchanged tidy silent
        (congrArg classDraft (perform_of_refused describes answered refused))
  | ok answer =>
      have isAnswer : (operation.entry unit).method? = answer := by
        rw [JournalEntry.method?, UnitOperation.entry, answered]
      cases answer with
      | none => exact tidy_of_unchanged tidy isAnswer (classDraft_of_silent answered)
      | some method =>
          rcases compileCall_call?_of_answer describes answered with
            ⟨call, source, isCall, compiled⟩
          exact tidy_of_compiled describes tidy isAnswer isCall compiled

theorem compiledMethods_cons (entry : JournalEntry) (others : List JournalEntry) :
    compiledMethods (entry :: others) = compiledMethods [entry] ++ compiledMethods others := by
  rw [compiledMethods, compiledMethods, compiledMethods, ← List.filterMap_append]
  rfl

/-- As long as no operation fails in code generation, operations leave no orphans. -/
theorem tidy_foldl {declarations : List (QName × ValueType)}
    (describes : unit.Describes config (latestDeclarations declarations))
    (tidy : unit.Tidy config code keys) {operations : List UnitOperation}
    (sound : ∀ entry ∈ unit.journal operations, entry.failsInternally = false) :
    (operations.foldl UnitOperation.perform unit).Tidy config
      (code ++ (compiledMethods (unit.journal operations)).flatMap CompiledMethod.code)
      (keys ++ (unit.journal operations).flatMap (JournalEntry.nameKeys config)) := by
  induction operations generalizing unit declarations code keys with
  | nil => simpa [journal, compiledMethods] using tidy
  | cons operation others ih =>
      rw [journal, List.forall_mem_cons] at sound
      have next := tidy_perform describes tidy sound.1
      have last := ih (describes_perform describes operation) next sound.2
      rw [journal, List.foldl_cons, compiledMethods_cons, List.flatMap_append,
        List.flatMap_cons, ← List.append_assoc, ← List.append_assoc]
      exact last

end Operations

/--
After operations of which none has failed in code generation, an index stands for an entry of the
pool exactly if it can be reached from the code of the methods that have been compiled; an operation
of the runtime library is referred to once if some method invokes it and otherwise not at all; and
the names that are registered are those that compiled calls test for, each once, in the order in
which they have first been tested for.
-/
theorem no_orphans (className : String) (config : Config) (operations : List UnitOperation)
    (sound : ∀ entry ∈ (CompileUnit.new className config).journal operations,
      entry.failsInternally = false) :
    let journal := (CompileUnit.new className config).journal operations
    let methods := compiledMethods journal
    let draft := (after className config operations).classDraft
    (∀ index, (draft.pool.get? index).isSome ↔
      draft.pool.Reachable (methods.flatMap CompiledMethod.code) index) ∧
    (∀ operation ∈ RuntimeOperation.all, draft.pool.countReferences operation.name =
      if methods.any (fun method => method.code.invokes draft.pool (operation.reference config))
      then 1 else 0) ∧
    draft.nodeTypes.names = (journal.flatMap (JournalEntry.nameKeys config)).eraseDups := by
  intro journal methods draft
  have tidy := @tidy_foldl _ _ _ _ [] (describes_new className config) (tidy_new className config)
    operations sound
  rw [List.nil_append, List.nil_append] at tidy
  rcases tidy.fills with ⟨planned, values, fills, isOperation⟩
  refine ⟨fills.isSome_get?_iff_reachable, ?_, tidy.names⟩
  intro operation isInAll
  -- references are counted by the names of methods, and every operation has its own name
  have distinct : ∀ other, method other ∈ values →
      other.name = (operation.reference config).name → other = operation.reference config := by
    intro other isHeld sameName
    rcases isOperation other isHeld with ⟨invoked, isInvoked, rfl⟩
    rw [name_injective_of_mem_all invoked isInvoked operation isInAll sameName]
  have counted := fills.represents.countReferences_eq distinct
  have invoked : methods.any
      (fun method => method.code.invokes draft.pool (operation.reference config)) = true ↔
        method (operation.reference config) ∈ values := by
    rw [← fills.invokes_iff_mem, Code.invokes, List.any_flatMap]
    rfl
  exact counted.trans (if_congr invoked.symm rfl rfl)

theorem method?_of_compile {source : String} {method : CompiledMethod}
    (compiled : compile source unit = .ok method later) :
    (UnitOperation.entry unit (.compile source)).method? = some method := by
  rw [JournalEntry.method?, UnitOperation.entry, UnitOperation.answer, compiled]
  rfl

theorem compiledMethods_cons_of_compile {source : String} {method : CompiledMethod}
    (compiled : compile source unit = .ok method later) (others : List JournalEntry) :
    compiledMethods (UnitOperation.entry unit (.compile source) :: others) =
      method :: compiledMethods others :=
  List.filterMap_cons_some (method?_of_compile compiled)

theorem nameKeys_of_compile {source : String} {method : CompiledMethod} {call : NameCall}
    (compiled : compile source unit = .ok method later)
    (resolves : resolvedCall config source = .ok call) :
    (UnitOperation.entry unit (.compile source)).nameKeys config = call.nameKeys := by
  have isCall : (UnitOperation.entry unit (.compile source)).operation.call? config =
      some call := by
    rw [UnitOperation.entry, UnitOperation.call?, resolves]
    rfl
  rw [JournalEntry.nameKeys, method?_of_compile compiled, isCall]

theorem failsInternally_of_compile {source : String} {method : CompiledMethod}
    (compiled : compile source unit = .ok method later) :
    (UnitOperation.entry unit (.compile source)).failsInternally = false := by
  rw [JournalEntry.failsInternally, UnitOperation.entry, UnitOperation.answer, compiled]
  rfl

theorem journal_after_cons (className : String) (config : Config)
    (history others : List UnitOperation) (operation : UnitOperation) :
    (after className config history).journal (operation :: others) =
      operation.entry (after className config history) ::
        (after className config (history ++ [operation])).journal others := by
  rw [journal, perform_after]

/-- Two calls with one name test, of which the second adds what it does not share. -/
theorem no_orphans_shared :
    ∃ first second firstUnit secondUnit,
      compile "name(a)" (after "A" {} []) = .ok first firstUnit ∧
      compile "local-name(a)" (after "A" {} [.compile "name(a)"]) = .ok second secondUnit ∧
      (∀ index, ((after "A" {} [.compile "name(a)",
            .compile "local-name(a)"]).classDraft.pool.get? index).isSome ↔
          (after "A" {} [.compile "name(a)", .compile "local-name(a)"]).classDraft.pool.Reachable
            (first.code ++ second.code) index) ∧
      (after "A" {} [.compile "name(a)", .compile "local-name(a)"]).classDraft.nodeTypes.names =
        ["a"] := by
  rcases compile_of_few "A" {} [] "name(a)" (by decide +kernel) (by decide) with
    ⟨first, firstUnit, firstCompiled⟩
  rcases compile_of_few "A" {} [.compile "name(a)"] "local-name(a)" (by decide +kernel)
    (by decide) with ⟨second, secondUnit, secondCompiled⟩
  have isJournal : (CompileUnit.new "A" {}).journal
      [.compile "name(a)", .compile "local-name(a)"] =
        [UnitOperation.entry (after "A" {} []) (.compile "name(a)"),
          UnitOperation.entry (after "A" {} [.compile "name(a)"]) (.compile "local-name(a)")] := by
    change (after "A" {} []).journal _ = _
    rw [journal_after_cons, journal_after_cons, List.nil_append, journal]
  have sound : ∀ entry ∈ (CompileUnit.new "A" {}).journal
      [.compile "name(a)", .compile "local-name(a)"], entry.failsInternally = false := by
    rw [isJournal, List.forall_mem_cons, List.forall_mem_cons]
    exact ⟨failsInternally_of_compile firstCompiled, failsInternally_of_compile secondCompiled,
      by simp⟩
  rcases no_orphans "A" {} [.compile "name(a)", .compile "local-name(a)"] sound with
    ⟨reachable, _, names⟩
  have firstKeys := @nameKeys_of_compile _ _ {} _ _
    (.onOperand .name (.ofLocalPart "name") (.step ⟨.child, .name (.ofLocalPart "a")⟩))
    firstCompiled (by decide +kernel)
  have secondKeys := @nameKeys_of_compile _ _ {} _ _
    (.onOperand .localName (.ofLocalPart "local-name")
      (.step ⟨.child, .name (.ofLocalPart "a")⟩)) secondCompiled (by decide +kernel)
  refine ⟨first, second, firstUnit, secondUnit, firstCompiled, secondCompiled, ?_, ?_⟩
  · intro index
    rw [reachable, isJournal, compiledMethods_cons_of_compile firstCompiled,
      compiledMethods_cons_of_compile secondCompiled, List.flatMap_cons, List.flatMap_cons]
    simp [compiledMethods]
  · rw [names, isJournal]
    simp only [List.flatMap_cons, List.flatMap_nil, firstKeys, secondKeys]
    decide

end CompileUnit

end NodeNames
