import NodeNames.Proofs.Emission.Repetition
import NodeNames.Proofs.NameCall.StackEffect
import NodeNames.Proofs.Unit.Layout
/-!
# Phases of compiling

A unit is described by its configuration and the variables that are declared.
Compiling a call checks it, starts a method, emits the code and verifies it, in
this order; each phase fails for a reason that the description decides, save
that the constant pool may get full. A compiled method is what has been
assembled from the script of its call.
-/

namespace NodeNames

open ConstantValue EmissionStep

/-- What a unit has to do with its configuration and its variables. -/
structure CompileUnit.Describes (unit : CompileUnit) (config : Config)
    (declared : List (QName × ValueType)) : Prop where
  sameConfig : unit.classDraft.config = config
  sameDeclared : unit.declared = declared
  symbols : ∀ name, unit.symbols.lookup? name = typeOf? declared name
  distinct : (variableNames declared).Nodup
  limit : unit.classDraft.pool.limit = min config.maxPoolEntries poolCapacity
  pool : ∃ values, unit.classDraft.pool.Represents values
  types : unit.classDraft.nodeTypes.Consistent

namespace CompileUnit

variable {unit : CompileUnit} {config : Config} {declared : List (QName × ValueType)}

/-- A method of the unit with slots for the variables. -/
structure Started (unit : CompileUnit) (config : Config) (declared : List (QName × ValueType))
    (method : MethodDraft) : Prop where
  name : method.name = s!"call{unit.methodCount}"
  code : method.code = []
  reserves : method.Reserves config
  local? : ∀ name, method.local? name = placeOf? config.firstFreeSlot.toNat declared name

def started (unit : CompileUnit) : CompileUnit :=
  { unit with methodCount := unit.methodCount + 1 }

theorem startMethod_of_room (describes : unit.Describes config declared)
    (room : config.firstFreeSlot.toNat + totalWidth declared ≤ 65535) :
    ∃ method, startMethod unit = .ok method unit.started ∧
      unit.Started config declared method := by
  rcases @allocateVariables_of_room (MethodDraft.new s!"call{unit.methodCount}" config) declared
      describes.distinct (fun _ _ => rfl) room with ⟨method, allocated, widens, _, found⟩
  refine ⟨method, ?_, widens.name, widens.code, ⟨widens.documentSlot, widens.contextNodeSlot⟩,
    found⟩
  simp only [startMethod, started, describes.sameConfig, ← describes.sameDeclared] at allocated ⊢
  rw [allocated]

theorem startMethod_of_no_room (describes : unit.Describes config declared)
    (full : 65535 < config.firstFreeSlot.toNat + totalWidth declared) :
    ∃ name, startMethod unit =
      .error (.noLocalSlot name s!"call{unit.methodCount}") unit.started := by
  rcases @allocateVariables_of_no_room (MethodDraft.new s!"call{unit.methodCount}" config) declared
      describes.distinct (fun _ _ => rfl) full with ⟨name, _, refused⟩
  refine ⟨name, ?_⟩
  simp only [startMethod, started, describes.sameConfig, ← describes.sameDeclared] at refused ⊢
  rw [refused]
  rfl

theorem check_of_undeclared (describes : unit.Describes config declared) {call : NameCall}
    (undeclared : operandType? (typeOf? declared) call.operand = none) :
    ∃ name, check call unit = .error (.undeclaredVariable name) unit := by
  rw [← (funext describes.symbols : unit.symbols.lookup? = _)] at undeclared
  rcases @checkOperand_of_undeclared _ call.function.render _ undeclared with ⟨name, _, refused⟩
  refine ⟨name, ?_⟩
  rw [check, NameCall.check, refused]
  rfl

theorem check_of_type (describes : unit.Describes config declared) {call : NameCall}
    {type : ValueType} (typed : operandType? (typeOf? declared) call.operand = some type) :
    check call unit =
      if type.isNodeLike then .ok { call with operandType := some type } unit
      else .error (.operandNotNode call.function.render type) unit := by
  rw [← (funext describes.symbols : unit.symbols.lookup? = _)] at typed
  rw [check, NameCall.check, checkOperand_of_type typed]
  cases type.isNodeLike <;> rfl

/-- What remains to be done when a method for a checked call has been started. -/
def finish (method : MethodDraft) (call : NameCall) (source : String) :
    UnitAction CompiledMethod := do
  let emitted ← emitInto method call
  let summary ← verify emitted.code
  return {
    name := emitted.name
    function := call.function
    code := emitted.code
    resultType := NameCall.resultType
    maxStack := summary.maxStack
    source }

theorem compileCall_of_room (describes : unit.Describes config declared) {call : NameCall}
    {type : ValueType} (source : String)
    (typed : operandType? (typeOf? declared) call.operand = some type)
    (nodeLike : type.isNodeLike = true)
    (room : config.firstFreeSlot.toNat + totalWidth declared ≤ 65535) :
    ∃ method, unit.Started config declared method ∧
      CheckedOperand method call.operand type ∧
      compileCall call source unit =
        finish method { call with operandType := some type } source unit.started := by
  rcases startMethod_of_room describes room with ⟨method, begun, isStarted⟩
  have sameTypes : (fun name => (method.local? name).map (·.type)) = typeOf? declared := by
    funext name
    rw [isStarted.local?, map_type_placeOf?]
  refine ⟨method, isStarted, checkedOperand_of_type (sameTypes ▸ typed) nodeLike, ?_⟩
  have checked := check_of_type describes typed
  rw [if_pos nodeLike] at checked
  rw [compileCall, bind_of_eq_ok checked, bind_of_eq_ok begun]
  rfl

/-- How far compiling a call gets before code is emitted for it. -/
inductive Course (unit : CompileUnit) (config : Config) (declared : List (QName × ValueType))
    (call : NameCall) (source : String) : Prop where
  | undeclared (name : QName)
      (untyped : operandType? (typeOf? declared) call.operand = none)
      (fails : compileCall call source unit = .error (.undeclaredVariable name) unit)
  | otherType (type : ValueType)
      (typed : operandType? (typeOf? declared) call.operand = some type)
      (notNode : type.isNodeLike = false)
      (fails : compileCall call source unit =
        .error (.operandNotNode call.function.render type) unit)
  | noRoom (type : ValueType) (name : QName)
      (typed : operandType? (typeOf? declared) call.operand = some type)
      (nodeLike : type.isNodeLike = true)
      (full : 65535 < config.firstFreeSlot.toNat + totalWidth declared)
      (fails : compileCall call source unit =
        .error (.noLocalSlot name s!"call{unit.methodCount}") unit.started)
  | finished (type : ValueType) (slots : MethodDraft)
      (typed : operandType? (typeOf? declared) call.operand = some type)
      (nodeLike : type.isNodeLike = true)
      (room : config.firstFreeSlot.toNat + totalWidth declared ≤ 65535)
      (isStarted : unit.Started config declared slots)
      (checked : CheckedOperand slots call.operand type)
      (finishes : compileCall call source unit =
        finish slots { call with operandType := some type } source unit.started)

theorem course_compileCall (describes : unit.Describes config declared) (call : NameCall)
    (source : String) : unit.Course config declared call source := by
  cases typed : operandType? (typeOf? declared) call.operand with
  | none =>
      rcases check_of_undeclared describes typed with ⟨name, refused⟩
      refine .undeclared name typed ?_
      rw [compileCall, bind_of_eq_error refused]
  | some type =>
      have checked := check_of_type describes typed
      by_cases nodeLike : type.isNodeLike = true
      · by_cases room : config.firstFreeSlot.toNat + totalWidth declared ≤ 65535
        · rcases compileCall_of_room describes source typed nodeLike room with
            ⟨slots, isStarted, operandChecked, finishes⟩
          exact .finished type slots typed nodeLike room isStarted operandChecked finishes
        · have full := Nat.lt_of_not_le room
          rcases startMethod_of_no_room describes full with ⟨name, refused⟩
          refine .noRoom type name typed nodeLike full ?_
          rw [if_pos nodeLike] at checked
          rw [compileCall, bind_of_eq_ok checked, bind_of_eq_error refused]
      · refine .otherType type typed (by simpa using nodeLike) ?_
        rw [if_neg nodeLike] at checked
        rw [compileCall, bind_of_eq_error checked]

theorem Describes.started (describes : unit.Describes config declared) :
    unit.started.Describes config declared :=
  ⟨describes.sameConfig, describes.sameDeclared, describes.symbols, describes.distinct,
    describes.limit, describes.pool, describes.types⟩

theorem Describes.withDraft (describes : unit.Describes config declared) {draft : Draft}
    {method : MethodDraft} {values : List ConstantValue}
    (continues : draft.Continues { classDraft := unit.classDraft, method } values) :
    ({ unit.started with classDraft := draft.classDraft } : CompileUnit).Describes config
      declared where
  sameConfig := continues.config.trans describes.sameConfig
  sameDeclared := describes.sameDeclared
  symbols := describes.symbols
  distinct := describes.distinct
  limit := continues.limit.trans describes.limit
  pool := ⟨values, continues.represents⟩
  types := continues.consistent describes.types

theorem emitInto_of_ok {method : MethodDraft} {call : NameCall} {draft : Draft}
    (emits : call.emit ⟨unit.classDraft, method⟩ = .ok () draft) :
    emitInto method call unit.started =
      .ok draft.method { unit.started with classDraft := draft.classDraft } := by
  simp only [emitInto, started, emits]

theorem emitInto_of_error {method : MethodDraft} {call : NameCall} {error : CompileError}
    {draft : Draft} (fails : call.emit ⟨unit.classDraft, method⟩ = .error error draft) :
    emitInto method call unit.started =
      .error error { unit.started with classDraft := draft.classDraft } := by
  simp only [emitInto, started, fails]

theorem verify_of_ok {code : Code} {summary : StackSummary}
    (verified : code.verify unit.classDraft.pool = .ok summary) :
    verify code unit = .ok summary unit := by
  simp only [verify, verified]

theorem verify_of_error {code : Code} {error : CompileError}
    (refused : code.verify unit.classDraft.pool = .error error) :
    verify code unit = .error error unit := by
  simp only [verify, refused]

/-- The unit after a method has been started and code for a call has been emitted into it. -/
def emitted (unit : CompileUnit) (method : MethodDraft) (call : NameCall) : CompileUnit :=
  { unit.started with
    classDraft := (leftBehind (call.emit ⟨unit.classDraft, method⟩)).classDraft }

theorem Describes.emitted (describes : unit.Describes config declared) (method : MethodDraft)
    (call : NameCall) : (unit.emitted method call).Describes config declared := by
  rcases describes.pool with ⟨values, represents⟩
  rcases @NameCall.continues_emit ⟨unit.classDraft, method⟩ values represents call with
    ⟨held, _, continues⟩
  exact describes.withDraft continues

/-- What a finished method leaves behind is what emitting its code leaves behind. -/
theorem leftBehind_finish (method : MethodDraft) (call : NameCall) (source : String) :
    leftBehind (finish method call source unit.started) = unit.emitted method call := by
  rw [CompileUnit.emitted]
  cases emits : call.emit ⟨unit.classDraft, method⟩ with
  | error error draft =>
      rw [finish, bind_of_eq_error (emitInto_of_error emits)]
      rfl
  | ok _ draft =>
      rw [finish, bind_of_eq_ok (emitInto_of_ok emits)]
      cases verified : draft.method.code.verify draft.classDraft.pool with
      | error error =>
          rw [bind_of_eq_error (verify_of_error verified)]
          rfl
      | ok summary =>
          rw [bind_of_eq_ok (verify_of_ok verified)]
          rfl

/--
What holds of a unit, of the unit with a method started, and of the unit with code emitted for any
call, holds of what compiling a call leaves behind.
-/
theorem leftBehind_compileCall {motive : CompileUnit → Prop}
    (describes : unit.Describes config declared) (untouched : motive unit)
    (begun : motive unit.started) (emitted : ∀ method call, motive (unit.emitted method call))
    (call : NameCall) (source : String) : motive (leftBehind (compileCall call source unit)) := by
  cases course_compileCall describes call source with
  | undeclared name untyped fails =>
      rw [fails]
      exact untouched
  | otherType type typed notNode fails =>
      rw [fails]
      exact untouched
  | noRoom type name typed nodeLike full fails =>
      rw [fails]
      exact begun
  | finished type slots typed nodeLike room isStarted checked finishes =>
      rw [finishes, leftBehind_finish]
      exact emitted slots _

/-- Code that has been emitted passes verification and becomes the code of the method. -/
theorem finish_of_ok {method : MethodDraft} {call : NameCall} {type : ValueType} {draft : Draft}
    (known : call.operandType = some type) (checked : CheckedOperand method call.operand type)
    (emits : call.emit ⟨unit.classDraft, method⟩ = .ok () draft)
    (sound : firstFault? (call.script config method unit.classDraft.nodeTypes) = none)
    (decodes : draft.method.code.decode? draft.classDraft.pool =
      some (plan (call.script config method unit.classDraft.nodeTypes)))
    (source : String) :
    finish method call source unit.started =
      .ok
        { name := draft.method.name
          function := call.function
          code := draft.method.code
          resultType := NameCall.resultType
          maxStack := operandPeak call.operand
          source }
        { unit.started with classDraft := draft.classDraft } := by
  have passes := @verify_of_ok { unit.started with classDraft := draft.classDraft } _ _
    (NameCall.verify_of_decode? known checked sound decodes)
  rw [finish, bind_of_eq_ok (emitInto_of_ok emits), bind_of_eq_ok passes]
  rfl

/-- What compiling a call has made of it, and what this has done to the unit. -/
structure Compiled (unit : CompileUnit) (config : Config) (slots : MethodDraft) (call : NameCall)
    (source : String) (method : CompiledMethod) (later : CompileUnit) : Prop where
  isMethod : method =
    { name := slots.name
      function := call.function
      code := method.code
      resultType := NameCall.resultType
      maxStack := operandPeak call.operand
      source }
  isLater : later = { unit.started with classDraft := later.classDraft }
  types : later.classDraft.nodeTypes =
    (call.script config slots unit.classDraft.nodeTypes).foldl typesAfter unit.classDraft.nodeTypes
  encoded : ∃ held, later.classDraft.pool.Represents held ∧
    Provided (call.script config slots unit.classDraft.nodeTypes) held
      later.classDraft.nodeTypes ∧
    method.code = (plan (call.script config slots unit.classDraft.nodeTypes)).map
      (DecodedInstruction.encode (indexIn held))

section Compiled

variable {slots : MethodDraft} {call : NameCall} {source : String} {method : CompiledMethod}
  {later : CompileUnit}

theorem Compiled.sound (compiled : unit.Compiled config slots call source method later) :
    firstFault? (call.script config slots unit.classDraft.nodeTypes) = none := by
  rcases compiled.encoded with ⟨_, _, provided, _⟩
  exact provided.sound

/-- The code of a compiled call means its script. -/
theorem Compiled.decode? (compiled : unit.Compiled config slots call source method later) :
    method.code.decode? later.classDraft.pool =
      some (plan (call.script config slots unit.classDraft.nodeTypes)) := by
  rcases compiled.encoded with ⟨held, represents, provided, code⟩
  rw [code]
  exact Code.decode?_map_encode represents provided.known

theorem Compiled.climbs (compiled : unit.Compiled config slots call source method later)
    {type : ValueType} (known : call.operandType = some type)
    (checked : CheckedOperand slots call.operand type) :
    Climbs (plan (call.script config slots unit.classDraft.nodeTypes)) 0 method.maxStack 1 := by
  rw [compiled.isMethod]
  exact NameCall.climbs_script known checked compiled.sound

end Compiled

/-- What comes of the remaining phases. -/
theorem finish_outcome (describes : unit.Describes config declared) {method : MethodDraft}
    (isStarted : unit.Started config declared method) {call : NameCall} {type : ValueType}
    (known : call.operandType = some type) (checked : CheckedOperand method call.operand type)
    (source : String) :
    match finish method call source unit.started with
    | .ok compiled later => unit.Compiled config method call source compiled later
    | .error error _ =>
        error = .poolExhausted unit.classDraft.pool.limit ∧
            unit.classDraft.pool.limit < unit.classDraft.pool.size + 31 ∨
          firstFault? (call.script config method unit.classDraft.nodeTypes) = some error := by
  rcases describes.pool with ⟨values, represents⟩
  have emission := @NameCall.emit_eq_performAll ⟨unit.classDraft, method⟩ values represents call
  have outcome := @outcome_performAll ⟨unit.classDraft, method⟩ values represents
    (call.script unit.classDraft.config method unit.classDraft.nodeTypes)
  rw [← emission, describes.sameConfig] at outcome
  cases result : call.emit ⟨unit.classDraft, method⟩ with
  | error error draft =>
      rw [result] at outcome
      rw [finish, bind_of_eq_error (emitInto_of_error result)]
      rcases outcome.2 with ⟨full, exhausted⟩ | ⟨_, fault⟩
      · have short := NameCall.limit_lt_of_full full
        rw [← represents.size_eq] at short
        exact .inl ⟨exhausted, short⟩
      · exact .inr fault
  | ok _ draft =>
      rw [result] at outcome
      rcases outcome with ⟨room, sound, continues, code, constants, types⟩
      rw [isStarted.code, List.nil_append] at code
      have decodes := Code.decode?_map_encode continues.represents constants
      rw [← code] at decodes
      have sameName := congrArg MethodDraft.name continues.frame
      simp only [MethodDraft.frame] at sameName
      have provided := @provided_of_room _ values unit.classDraft.nodeTypes _ sound room
      rw [finish_of_ok known checked result sound decodes source, sameName]
      exact ⟨rfl, rfl, types, _, continues.represents, types ▸ provided, code⟩

/-- A call that is compiled has been checked and given slots, and its script has been performed. -/
theorem compiled_of_compileCall (describes : unit.Describes config declared) {call : NameCall}
    {source : String} {method : CompiledMethod} {later : CompileUnit}
    (succeeds : compileCall call source unit = .ok method later) :
    ∃ type slots, operandType? (typeOf? declared) call.operand = some type ∧
      type.isNodeLike = true ∧ config.firstFreeSlot.toNat + totalWidth declared ≤ 65535 ∧
      unit.Started config declared slots ∧ CheckedOperand slots call.operand type ∧
      unit.Compiled config slots { call with operandType := some type } source method later := by
  cases course_compileCall describes call source with
  | undeclared name untyped fails =>
      rw [succeeds] at fails
      cases fails
  | otherType type typed notNode fails =>
      rw [succeeds] at fails
      cases fails
  | noRoom type name typed nodeLike full fails =>
      rw [succeeds] at fails
      cases fails
  | finished type slots typed nodeLike room isStarted checked finishes =>
      have outcome := @finish_outcome _ _ _ describes _ isStarted
        { call with operandType := some type } type rfl checked source
      rw [← finishes, succeeds] at outcome
      exact ⟨type, slots, typed, nodeLike, room, isStarted, checked, outcome⟩

end CompileUnit

end NodeNames
