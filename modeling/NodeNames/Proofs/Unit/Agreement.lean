import NodeNames.Proofs.Unit.Refusal
/-!
# The two phases agree on variables

Calls are checked against the types of the unit's variables, and code is
emitted for the variables that a method has slots for. The two are kept in
different places by different rules, and still a method that has been started
has exactly the variables of the check, with their types.
-/

namespace NodeNames

open EmissionStep

/--
The code that pushes a variable and turns it into a node, by its type; a call with a variable of
another type does not pass the check.
-/
def LocalVariable.nodeCode (config : Config) (place : LocalVariable) : List DecodedInstruction :=
  match place.type with
  | .node => [.loadInteger place.slot]
  | .nodeSet =>
      [.loadReference place.slot, RuntimeOperation.cloneIterator.invocation config,
        RuntimeOperation.next.invocation config]
  | .reference =>
      [.loadReference place.slot, RuntimeOperation.referenceToNodeSet.invocation config,
        RuntimeOperation.next.invocation config]
  | .string | .boolean | .int | .real | .void => []

section Variables

variable {call : NameCall}

/-- The script of a call with a variable loads the variable as its type asks for. -/
theorem NameCall.plan_script_of_variable {config : Config} {method : MethodDraft}
    {types : NodeTypes} {name : QName} {place : LocalVariable}
    (isVariable : call.operand = some (.variableReference name))
    (known : call.operandType = some place.type) (found : method.local? name = some place)
    (nodeLike : place.type.isNodeLike = true) :
    plan (call.script config method types) =
      .loadReference method.documentSlot :: (place.nodeCode config ++
        call.function.finalOperations.map fun operation => operation.invocation config) := by
  rcases place with ⟨slot, type⟩
  simp only [script, known, plan_append, plan_preparations, plan_invocations, List.nil_append,
    Emission.operandScript, isVariable, Expression.script, Emission.variableSteps, found]
  cases type with
  | node | nodeSet | reference => rfl
  | string | boolean | int | real | void => cases nodeLike

end Variables

namespace CompileUnit

variable {unit later : CompileUnit} {config : Config} {declared : List (QName × ValueType)}
  {method : MethodDraft}

theorem started_of_startMethod (describes : unit.Describes config declared)
    (begun : startMethod unit = .ok method later) :
    unit.Started config declared method ∧ later = unit.started := by
  by_cases room : config.firstFreeSlot.toNat + totalWidth declared ≤ 65535
  · rcases startMethod_of_room describes room with ⟨other, succeeds, isStarted⟩
    rw [begun] at succeeds
    cases succeeds
    exact ⟨isStarted, rfl⟩
  · rcases startMethod_of_no_room describes (Nat.lt_of_not_le room) with ⟨name, fails⟩
    rw [begun] at fails
    cases fails

/-- The variables of a started method have the types that calls are checked against. -/
theorem Started.type_local? (isStarted : unit.Started config declared method)
    (describes : unit.Describes config declared) (name : QName) :
    (method.local? name).map (·.type) = unit.symbols.lookup? name := by
  rw [isStarted.local?, map_type_placeOf?, describes.symbols]

theorem Started.checkedOperand (isStarted : unit.Started config declared method)
    (describes : unit.Describes config declared) {operand : Option Expression} {type : ValueType}
    (typed : operandType? unit.symbols.lookup? operand = some type)
    (nodeLike : type.isNodeLike = true) : CheckedOperand method operand type := by
  refine checkedOperand_of_type ?_ nodeLike
  rw [funext (isStarted.type_local? describes)]
  exact typed

/-- No code is missing for a checked call except for a full pool or an unnamed iterator. -/
theorem code_of_emit_error (describes : unit.Describes config declared) {call : NameCall}
    {type : ValueType} (known : call.operandType = some type)
    (checked : CheckedOperand method call.operand type) {error : CompileError} {draft : Draft}
    (fails : call.emit ⟨unit.classDraft, method⟩ = .error error draft) :
    error.code = .poolExhausted ∨ error.code = .malformedDescriptor := by
  rcases describes.pool with ⟨values, represents⟩
  have emission := @NameCall.emit_eq_performAll ⟨unit.classDraft, method⟩ values represents call
  have outcome := @outcome_performAll ⟨unit.classDraft, method⟩ values represents
    (call.script unit.classDraft.config method unit.classDraft.nodeTypes)
  rw [← emission, fails] at outcome
  rcases outcome.2 with ⟨_, exhausted⟩ | ⟨_, isFault⟩
  · rw [exhausted]
    exact .inl rfl
  · have fault := @map_code_firstFault? unit.classDraft.config method unit.classDraft.nodeTypes
      call type known checked
    rw [isFault, Option.map_some] at fault
    rcases iteratorFault?_eq unit.classDraft.config type with sound | broken
    · rw [sound] at fault
      cases fault
    · rw [broken] at fault
      exact .inr (Option.some.inj fault)

/-- Code that is emitted into a started method is that of the call's script. -/
theorem decode?_of_emit (describes : unit.Describes config declared)
    (isStarted : unit.Started config declared method) {call : NameCall} {draft : Draft}
    (emits : call.emit ⟨unit.classDraft, method⟩ = .ok () draft) :
    draft.method.code.decode? draft.classDraft.pool =
      some (plan (call.script config method unit.classDraft.nodeTypes)) := by
  rcases describes.pool with ⟨values, represents⟩
  have emission := @NameCall.emit_eq_performAll ⟨unit.classDraft, method⟩ values represents call
  have outcome := @outcome_performAll ⟨unit.classDraft, method⟩ values represents
    (call.script unit.classDraft.config method unit.classDraft.nodeTypes)
  rw [← emission, emits, describes.sameConfig] at outcome
  rcases outcome with ⟨_, _, continues, code, constants, _⟩
  rw [isStarted.code, List.nil_append] at code
  rw [code]
  exact Code.decode?_map_encode continues.represents constants

/--
Whatever has been done to a unit, a method that can be started has exactly the variables that calls
are checked against, with the same types, and no variable is declared twice. So no call that passes
the check misses a variable or its type when its code is emitted, and the code loads a variable
in the way of the type that has been checked.
-/
theorem phases_agree (className : String) (config : Config) (history : List UnitOperation)
    {method : MethodDraft} {later : CompileUnit}
    (begun : startMethod (after className config history) = .ok method later) :
    (∀ name type, (after className config history).symbols.lookup? name = some type ↔
      ∃ place, method.local? name = some place ∧ place.type = type) ∧
    (variableNames (after className config history).declared).Nodup ∧
    ∀ call checked : NameCall, call.check (after className config history).symbols = .ok checked →
      (∀ error draft, checked.emit ⟨later.classDraft, method⟩ = .error error draft →
        error.code ≠ .undeclaredVariable ∧ error.code ≠ .uncheckedCall) ∧
      ∀ name, call.operand = some (.variableReference name) →
        ∃ place, method.local? name = some place ∧ checked.operandType = some place.type ∧
          ∀ draft, checked.emit ⟨later.classDraft, method⟩ = .ok () draft →
            draft.method.code.decode? draft.classDraft.pool =
              some (.loadReference config.domSlot :: (place.nodeCode config ++
                call.function.finalOperations.map fun operation =>
                  operation.invocation config)) := by
  have describes := describes_after className config history
  rcases started_of_startMethod describes begun with ⟨isStarted, rfl⟩
  refine ⟨?_, describes.sameDeclared ▸ describes.distinct, ?_⟩
  · intro name type
    rw [← isStarted.type_local? describes, Option.map_eq_some_iff]
  · intro call checked checks
    rcases NameCall.of_check checks with ⟨type, typed, nodeLike, rfl⟩
    have operandChecked := isStarted.checkedOperand describes typed nodeLike
    constructor
    · intro error draft fails
      rcases @code_of_emit_error _ _ _ _ describes { call with operandType := some type } type rfl
        operandChecked error draft fails with isCode | isCode <;> simp [isCode]
    · intro name isVariable
      rw [isVariable, operandType?, ← isStarted.type_local? describes,
        Option.map_eq_some_iff] at typed
      rcases typed with ⟨place, found, rfl⟩
      refine ⟨place, found, rfl, ?_⟩
      intro draft emits
      rw [decode?_of_emit describes isStarted emits, ← isStarted.reserves.documentSlot]
      exact congrArg some (NameCall.plan_script_of_variable isVariable rfl found nodeLike)

/-- A variable that is declared once more has its latest type in both phases. -/
theorem phases_agree_redeclared :
    ∃ method later place,
      startMethod (after "A" {} [.declare (.ofLocalPart "n") .node,
        .declare (.ofLocalPart "n") .nodeSet]) = .ok method later ∧
      method.local? (.ofLocalPart "n") = some place ∧ place.type = .nodeSet ∧
      ∀ error draft,
        NameCall.emit ⟨.name, .ofLocalPart "name", some (.variableReference (.ofLocalPart "n")),
          some .nodeSet⟩ ⟨later.classDraft, method⟩ = .error error draft →
        error.code ≠ .undeclaredVariable := by
  rcases startMethod_of_room (describes_after "A" {} [.declare (.ofLocalPart "n") .node,
    .declare (.ofLocalPart "n") .nodeSet]) (by decide) with ⟨method, begun, _⟩
  rcases phases_agree "A" {} _ begun with ⟨agree, _, checkedCalls⟩
  rcases (agree (.ofLocalPart "n") .nodeSet).mp (by decide +kernel) with ⟨place, found, isNodeSet⟩
  refine ⟨method, _, place, begun, found, isNodeSet, ?_⟩
  intro error draft fails
  have checks : (NameCall.onOperand .name (.ofLocalPart "name")
      (.variableReference (.ofLocalPart "n"))).check (after "A" {} [
        .declare (.ofLocalPart "n") .node, .declare (.ofLocalPart "n") .nodeSet]).symbols =
      .ok ⟨.name, .ofLocalPart "name", some (.variableReference (.ofLocalPart "n")),
        some .nodeSet⟩ := by
    decide +kernel
  exact ((checkedCalls _ _ checks).1 error draft fails).1

end CompileUnit

end NodeNames
