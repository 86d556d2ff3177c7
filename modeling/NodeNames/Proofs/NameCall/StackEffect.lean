import NodeNames.Proofs.Machine.Climb
import NodeNames.Proofs.Machine.Meaning
/-!
# The effect of a call on the stack

The code of a call adds one slot to the stack, whatever code the method has had
before and whatever has been in the pool, and the code of an expression adds the
slots that a variable of its type takes. How many slots are needed on the way
can be told from the form of the operand.
-/

namespace NodeNames

open ConstantValue EmissionStep

namespace RuntimeOperation

variable {operation : RuntimeOperation} {config : Config}

/-- All values that operations take and give have one slot. -/
theorem slots_of_mem_all : ∀ operation ∈ all, operation.result.slots = 1 ∧
    operation.parameters.length = ValueType.totalSlots operation.parameters := by
  decide

/-- An operation takes one slot for each of its values and leaves one. -/
theorem effect?_invocation (isOperation : operation ∈ all)
    (sound : (EmissionStep.append (operation.invocation config)).fault? = none) :
    (operation.invocation config).effect? = some ⟨operation.arity, 1⟩ := by
  rw [fault?_invocation] at sound
  have described := read_descriptor (plain_of_mem_all operation isOperation) sound
  have slots := slots_of_mem_all operation isOperation
  have counted := (ofInterface_of_mem_all operation isOperation).2
  have resultSlots := resultSlots_signature operation config
  have argumentSlots := argumentSlots_signature operation config
  cases kind : operation.kind with
  | ofClass =>
      simp [invocation, kind, DecodedInstruction.effect?, MethodReference.signature?, reference,
        described, arity, resultSlots, argumentSlots, slots]
  | ofInterface =>
      simp [invocation, kind, DecodedInstruction.effect?, MethodReference.signature?, reference,
        described, arity, resultSlots, argumentSlots, slots, counted kind]

end RuntimeOperation

open RuntimeOperation

theorem Climbs.invoke {operation : RuntimeOperation} {config : Config}
    {plan : List DecodedInstruction} {start peak final whole : Nat} (isOperation : operation ∈ all)
    (sound : (EmissionStep.append (operation.invocation config)).fault? = none)
    (enough : operation.arity ≤ start) (top : max start peak = whole)
    (climbs : Climbs plan (start - operation.arity + 1) peak final) :
    Climbs (operation.invocation config :: plan) start whole final := by
  rw [← top]
  exact .cons (effect?_invocation isOperation sound) enough climbs

/-- The slots that the iterator of a step needs until it is on the stack. -/
def Step.peak (step : Step) : Nat :=
  match step.test with
  | .anyNode => 2
  | .kind _ | .wildcard | .name _ => 3

/-- The slots that an expression needs until its value, of a given type, is on the stack. -/
def Expression.peak (expression : Expression) (type : ValueType) : Nat :=
  match expression with
  | step selected => selected.peak
  | contextNode | variableReference _ | literal _ => type.width

/-- The slots that a call needs, of which the document takes the first. -/
def operandPeak (operand : Option Expression) : Nat :=
  match operand with
  | some (.step selected) =>
      match selected.test with
      | .anyNode => 3
      | .kind _ | .wildcard | .name _ => 4
  | none | some .contextNode | some (.variableReference _) | some (.literal _) => 2

section Scripts

variable {config : Config} {method : MethodDraft} {types : NodeTypes}

theorem climbs_iteratorSteps_untyped {axis : Axis}
    (sound : firstFault? (Emission.iteratorSteps config method axis none) = none) :
    Climbs (plan (Emission.iteratorSteps config method axis none)) 0 2 1 := by
  have invoked : (EmissionStep.append (getAxisIterator.invocation config)).fault? = none := by
    simpa [Emission.iteratorSteps] using sound
  exact .push rfl (.push rfl (.invoke (by decide) invoked (by decide) rfl (.nil 1)))

theorem climbs_iteratorSteps_typed {axis : Axis} {type : Nat}
    (sound : firstFault? (Emission.iteratorSteps config method axis (some type)) = none) :
    Climbs (plan (Emission.iteratorSteps config method axis (some type))) 0 3 1 := by
  have invoked : (EmissionStep.append (getTypedAxisIterator.invocation config)).fault? = none := by
    simpa [Emission.iteratorSteps] using sound
  exact .push rfl (.push rfl (.push rfl (.invoke (by decide) invoked (by decide) rfl (.nil 1))))

theorem Step.climbs_script (selected : Step)
    (sound : firstFault? ((Expression.step selected).script config method types) = none) :
    Climbs (plan ((Expression.step selected).script config method types)) 0 selected.peak 1 := by
  rcases selected with ⟨axis, test⟩
  simp only [Expression.script, firstFault?_append, firstFault?_registrations,
    Option.none_or] at sound
  simp only [Expression.script, plan_append, plan_registrations, List.nil_append]
  cases test with
  | anyNode => exact climbs_iteratorSteps_untyped sound
  | kind _ | wildcard | name _ => exact climbs_iteratorSteps_typed sound

/-- The code of an expression adds the slots of its type to the stack. -/
theorem Expression.climbs_script {expression : Expression} {type : ValueType}
    (typed : operandType? (fun name => (method.local? name).map (·.type)) (some expression) =
      some type)
    (sound : firstFault? (expression.script config method types) = none) :
    Climbs (plan (expression.script config method types)) 0 (expression.peak type) type.width := by
  cases expression with
  | contextNode =>
      cases typed
      exact .push rfl (.nil 1)
  | literal value =>
      cases typed
      exact .push rfl (.nil 1)
  | step selected =>
      cases typed
      exact selected.climbs_script sound
  | variableReference name =>
      rcases Option.map_eq_some_iff.mp typed with ⟨⟨slot, declared⟩, found, rfl⟩
      simp only [script, Emission.variableSteps, found] at sound ⊢
      cases declared with
      | node | int | boolean | reference | string | void => exact .push rfl (.nil 1)
      | real => exact .cons rfl (Nat.zero_le 0) (.nil 2)
      | nodeSet =>
          have invoked : (EmissionStep.append (cloneIterator.invocation config)).fault? = none := by
            simpa using sound
          exact .push rfl (.invoke (by decide) invoked (by decide) rfl (.nil 1))

theorem Emission.climbs_operandScript {operand : Option Expression} {type : ValueType}
    (checked : CheckedOperand method operand type)
    (sound : firstFault? (Emission.operandScript config method types operand type) = none) :
    Climbs (plan (Emission.operandScript config method types operand type)) 0
      (operandPeak operand) 2 := by
  cases checked with
  | absent => exact .push rfl (.push rfl (.nil 2))
  | contextNode => exact .push rfl (.push rfl (.nil 2))
  | nodeVariable found =>
      simp only [operandScript, Expression.script, variableSteps, found, Expression.adaptScript]
      exact .push rfl (.push rfl (.nil 2))
  | nodeSetVariable found =>
      simp only [operandScript, Expression.script, variableSteps, found, Expression.adaptScript,
        Expression.startScript] at sound ⊢
      simp only [List.cons_append, List.nil_append, firstFault?_cons, firstFault?_nil,
        fault?_loadReference, Option.none_or, Option.or_none, Option.or_eq_none_iff] at sound
      exact .push rfl (.push rfl (.invoke (by decide) sound.1 (by decide) rfl
        (.invoke (by decide) sound.2 (by decide) rfl (.nil 2))))
  | referenceVariable found =>
      simp only [operandScript, Expression.script, variableSteps, found,
        Expression.adaptScript] at sound ⊢
      simp only [List.cons_append, List.nil_append, firstFault?_cons, firstFault?_nil,
        fault?_loadReference, Option.none_or, Option.or_none, Option.or_eq_none_iff] at sound
      exact .push rfl (.push rfl (.invoke (by decide) sound.1 (by decide) rfl
        (.invoke (by decide) sound.2 (by decide) rfl (.nil 2))))
  | step selected =>
      have isPeak : max (1 + selected.peak) 3 = operandPeak (some (.step selected)) := by
        rcases selected with ⟨axis, test⟩
        cases test <;> rfl
      simp only [operandScript, Expression.adaptScript, Expression.startScript, firstFault?_cons,
        firstFault?_append, fault?_loadReference, fault?_loadInteger, firstFault?_nil,
        Option.none_or, Option.or_none, Option.or_eq_none_iff] at sound
      have started : Climbs (plan ((Expression.step selected).adaptScript config method .nodeSet))
          2 3 2 :=
        .push rfl (.invoke (by decide) sound.2.1 (by decide) rfl
          (.invoke (by decide) sound.2.2 (by decide) rfl (.nil 2)))
      have climbs := ((selected.climbs_script sound.1).above 1).append started
      rw [isPeak] at climbs
      simp only [operandScript, plan_append_cons, plan_append]
      exact .push rfl climbs

theorem NameFunction.climbs_finalOperations (function : NameFunction) (config : Config) :
    Climbs (function.finalOperations.map fun operation => operation.invocation config) 2 2 1 := by
  have sound {operation : RuntimeOperation} (isFinal : operation ∈ function.finalOperations) :
      (EmissionStep.append (operation.invocation config)).fault? = none := by
    rw [fault?_invocation]
    exact fault?_finalOperation isFinal config
  cases function with
  | name | namespaceUri =>
      exact .invoke (by decide) (sound (by decide)) (by decide) rfl (.nil 1)
  | localName =>
      exact .invoke (by decide) (sound (by decide)) (by decide) rfl
        (.invoke (by decide) (sound (by decide)) (by decide) rfl (.nil 1))

/-- The code of a checked call adds one slot to the stack. -/
theorem NameCall.climbs_script {call : NameCall} {type : ValueType}
    (known : call.operandType = some type) (checked : CheckedOperand method call.operand type)
    (sound : firstFault? (call.script config method types) = none) :
    Climbs (plan (call.script config method types)) 0 (operandPeak call.operand) 1 := by
  rw [firstFault?_script known] at sound
  have pushed := Emission.climbs_operandScript checked sound
  have climbs := pushed.append (call.function.climbs_finalOperations config)
  rw [Nat.max_eq_left pushed.final_le_peak] at climbs
  simp only [script, known, plan_append, plan_preparations, plan_invocations, List.nil_append]
  exact climbs

/-- The code of a checked call passes verification and leaves one slot. -/
theorem NameCall.verify_of_decode? {pool : ConstantPool} {call : NameCall} {type : ValueType}
    {code : Code} (known : call.operandType = some type)
    (checked : CheckedOperand method call.operand type)
    (sound : firstFault? (call.script config method types) = none)
    (decodes : code.decode? pool = some (plan (call.script config method types))) :
    code.verify pool = .ok ⟨operandPeak call.operand, 1⟩ :=
  Code.verify_of_climbs decodes (climbs_script known checked sound)

end Scripts

section Verification

variable {draft later : Draft} {values : List ConstantValue} {summary : StackSummary}

/-- Emitted code climbs from where the code before it has ended. -/
theorem verify_of_performAll (represents : draft.classDraft.pool.Represents values)
    {steps : List EmissionStep} {peak final : Nat}
    (performed : performAll steps draft = .ok () later)
    (verified : draft.method.code.verify draft.classDraft.pool = .ok summary)
    (climbs : Climbs (plan steps) 0 peak final) :
    later.method.code.verify later.classDraft.pool =
      .ok ⟨max summary.maxStack (summary.finalDepth + peak), summary.finalDepth + final⟩ := by
  have outcome := outcome_performAll represents steps
  rw [performed] at outcome
  rcases outcome with ⟨_, _, continues, code, constants, _⟩
  have longer := prefix_absorb draft.classDraft.pool.limit values (needs steps)
  have reached := Code.finalDepth_le_of_verifyFrom verified (Nat.le_refl 0)
  have before := Code.verifyFrom_of_longer represents continues.represents longer verified
  have decodes := Code.decode?_map_encode continues.represents constants
  have added := Code.verifyFrom_of_climbs decodes (climbs.above summary.finalDepth) reached
    (0 + draft.method.code.length)
  rw [code, Code.verify, Code.verifyFrom_append, before]
  exact added

theorem sound_of_performAll (represents : draft.classDraft.pool.Represents values)
    {steps : List EmissionStep} (performed : performAll steps draft = .ok () later) :
    firstFault? steps = none := by
  have outcome := outcome_performAll represents steps
  rw [performed] at outcome
  exact outcome.2.1

/-- Where the pool has room, only a fault of its script keeps a call from being emitted. -/
theorem NameCall.emit_of_room (represents : draft.classDraft.pool.Represents values)
    (room : values.length + 31 ≤ draft.classDraft.pool.limit) {call : NameCall}
    (sound : firstFault? (call.script draft.classDraft.config draft.method
      draft.classDraft.nodeTypes) = none) :
    ∃ later, call.emit draft = .ok () later := by
  rw [NameCall.emit_eq_performAll represents]
  have outcome := outcome_performAll represents
    (call.script draft.classDraft.config draft.method draft.classDraft.nodeTypes)
  cases result : performAll
      (call.script draft.classDraft.config draft.method draft.classDraft.nodeTypes) draft with
  | ok _ later => exact ⟨later, rfl⟩
  | error error later =>
      rw [result] at outcome
      rcases outcome.2 with ⟨full, _⟩ | ⟨_, fault⟩
      · have short := NameCall.limit_lt_of_full full
        omega
      · rw [sound] at fault
        cases fault

/-- A symbol table whose variables are in slots of a method, with the same types. -/
def SymbolTable.AgreesWith (symbols : SymbolTable) (method : MethodDraft) : Prop :=
  ∀ name type, symbols.lookup? name = some type → (method.local? name).map (·.type) = some type

theorem operandType?_of_agreesWith {symbols : SymbolTable} {method : MethodDraft}
    (agrees : symbols.AgreesWith method) {operand : Option Expression} {type : ValueType}
    (typed : operandType? symbols.lookup? operand = some type) :
    operandType? (fun name => (method.local? name).map (·.type)) operand = some type := by
  rcases operand with _ | expression
  · exact typed
  · cases expression with
    | variableReference name => exact agrees name type typed
    | contextNode | step selected | literal value => exact typed

theorem operandType?_of_type {symbols : SymbolTable} {expression : Expression} {type : ValueType}
    (typed : expression.type symbols = .ok type) :
    operandType? symbols.lookup? (some expression) = some type := by
  cases expression with
  | variableReference name =>
      unfold Expression.type at typed
      cases found : symbols.lookup? name with
      | none => simp [found] at typed
      | some declared =>
          simp only [found, Except.ok.injEq] at typed
          rw [operandType?, found, typed]
  | contextNode | step selected | literal value =>
      cases typed
      rfl

/-- A class of which only the constant pool and the node types have a history. -/
def ClassDraft.grown (name : String) (config : Config) (requests : List ConstantValue)
    (nodeTypes : NodeTypes) : ClassDraft :=
  { name, config, nodeTypes
    pool := addAll (.withLimit config.maxPoolEntries) requests }

/--
In any class and any method whose code passes verification, with variables of the types that are
checked against, an expression that is emitted adds to the depth of the stack the slots that a
variable of its type takes, and a call adds one and needs the slots that the form of its operand
asks for. All the code passes verification, also the code from before, with the pool as it is then.
-/
theorem verify_of_emit (className : String) (config : Config) (requests : List ConstantValue)
    (nodeTypes : NodeTypes) (method : MethodDraft) (symbols : SymbolTable)
    (summary : StackSummary)
    (verified : method.code.verify (ClassDraft.grown className config requests nodeTypes).pool =
      .ok summary)
    (agrees : symbols.AgreesWith method) :
    (∀ expression type later, Expression.type expression symbols = .ok type →
      expression.emit ⟨ClassDraft.grown className config requests nodeTypes, method⟩ =
        .ok () later →
      later.method.code.verify later.classDraft.pool =
        .ok ⟨max summary.maxStack (summary.finalDepth + expression.peak type),
          summary.finalDepth + type.width⟩) ∧
    ∀ call checked later, NameCall.check call symbols = .ok checked →
      checked.emit ⟨ClassDraft.grown className config requests nodeTypes, method⟩ =
        .ok () later →
      later.method.code.verify later.classDraft.pool =
        .ok ⟨max summary.maxStack (summary.finalDepth + operandPeak call.operand),
          summary.finalDepth + 1⟩ := by
  rcases ConstantPool.represents_addAll (ConstantPool.represents_withLimit config.maxPoolEntries)
    requests with ⟨_, values, _, represents⟩
  constructor
  · intro expression type later typed emits
    have known := operandType?_of_agreesWith agrees (operandType?_of_type typed)
    have performed := expression.performs_emit
      ⟨ClassDraft.grown className config requests nodeTypes, method⟩ ⟨rfl, rfl, rfl⟩
    rw [emits] at performed
    have sound := sound_of_performAll represents performed.symm
    exact verify_of_performAll represents performed.symm verified
      (Expression.climbs_script known sound)
  · intro call checked later checks emits
    rcases NameCall.of_check checks with ⟨type, typed, nodeLike, rfl⟩
    have operandChecked := checkedOperand_of_type (operandType?_of_agreesWith agrees typed) nodeLike
    have performed := @NameCall.emit_eq_performAll
      ⟨ClassDraft.grown className config requests nodeTypes, method⟩ _ represents
      { call with operandType := some type }
    rw [emits] at performed
    have sound := sound_of_performAll represents performed.symm
    exact verify_of_performAll represents performed.symm verified
      (NameCall.climbs_script rfl operandChecked sound)

/-- A call with a name test, in a method that has pushed the context node already. -/
theorem verify_of_emit_nameTest :
    ∃ later,
      NameCall.emit ⟨.name, .ofLocalPart "name", some (.step ⟨.child, .name (.ofLocalPart "p")⟩),
          some .nodeSet⟩
        ⟨ClassDraft.grown "A" {} [] Interner.empty,
          { MethodDraft.new "m" {} with code := [.iload 4] }⟩ = .ok () later ∧
      later.method.code.verify later.classDraft.pool = .ok ⟨5, 2⟩ := by
  have represents := ConstantPool.represents_withLimit ({} : Config).maxPoolEntries
  have names : ({} : Config).NamesIterator := by
    unfold Config.NamesIterator
    decide
  have sound := @NameCall.firstFault?_script {}
    { MethodDraft.new "m" {} with code := [.iload 4] } Interner.empty
    ⟨.name, .ofLocalPart "name", some (.step ⟨.child, .name (.ofLocalPart "p")⟩), some .nodeSet⟩ _
    rfl
  rw [firstFault?_operandScript_of_names names (.step _)] at sound
  rcases @NameCall.emit_of_room ⟨ClassDraft.grown "A" {} [] Interner.empty,
    { MethodDraft.new "m" {} with code := [.iload 4] }⟩ [] represents (by decide) _ sound with
    ⟨later, emits⟩
  refine ⟨later, emits, ?_⟩
  exact (verify_of_emit "A" {} [] Interner.empty { MethodDraft.new "m" {} with code := [.iload 4] }
    SymbolTable.empty ⟨1, 1⟩ rfl (fun _ _ found => nomatch found)).2
    (.onOperand .name (.ofLocalPart "name") (.step ⟨.child, .name (.ofLocalPart "p")⟩)) _ later rfl
    emits

end Verification

end NodeNames
