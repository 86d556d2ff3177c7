import NodeNames.Proofs.NameCall.Resolution
import NodeNames.Proofs.Unit.History
/-!
# Refusals

For which reason a source is refused is decided by the configuration, the
declared variables and the source, up to a constant pool that gets full while
the code is emitted. No code that is emitted fails verification.
-/

namespace NodeNames

open EmissionStep

instance (config : Config) : Decidable config.NamesIterator :=
  inferInstanceAs (Decidable (_ ∧ _))

instance (type : ValueType) : Decidable type.NeedsIterator :=
  inferInstanceAs (Decidable (_ ∨ _))

def resolvedCall (config : Config) (source : String) : Except CompileError NameCall :=
  (FunctionCall.ofText source).bind fun call => call.resolve config

/-- Why no code is emitted for an operand of a type: an iterator that cannot be named. -/
def iteratorFault? (config : Config) (type : ValueType) : Option ErrorCode :=
  if type.NeedsIterator ∧ ¬config.NamesIterator then some .malformedDescriptor else none

/-- The first reason for which a resolved call is refused, in the order of the phases. -/
def NameCall.refusal? (config : Config) (declared : List (QName × ValueType)) (call : NameCall) :
    Option ErrorCode :=
  match operandType? (typeOf? declared) call.operand with
  | none => some .undeclaredVariable
  | some type =>
      if type.isNodeLike = false then some .typeMismatch
      else if 65535 < config.firstFreeSlot.toNat + totalWidth declared then some .slotsExhausted
      else iteratorFault? config type

/-- The first reason for which a source is refused, in the order of the phases. -/
def refusal? (config : Config) (declared : List (QName × ValueType)) (source : String) :
    Option ErrorCode :=
  match FunctionCall.read? source.toList with
  | none => some .syntaxFault
  | some written =>
      match written.resolve config with
      | .error error => some error.code
      | .ok call => call.refusal? config declared

/-- The codes of failures that verification finds and of calls that have not been checked. -/
def verificationCodes : List ErrorCode :=
  [.wrongReference, .stackUnderflow, .countMismatch, .uncheckedCall]

/--
What a refused source is refused for: the reason is the given one, or the pool has got full, with
little room left, when the code was emitted.
-/
def RefusedFor (pool : ConstantPool) (reason? : Option ErrorCode) (error : CompileError) : Prop :=
  error.code ∉ verificationCodes ∧
    (reason? = some error.code ∨
      error.code = .poolExhausted ∧ (reason? = none ∨ reason? = some .malformedDescriptor) ∧
        pool.limit < pool.size + 31)

/-- Without a reason, and with room for what a call adds to the pool, nothing is refused. -/
theorem not_refusedFor_none {pool : ConstantPool} (room : pool.size + 31 ≤ pool.limit)
    (error : CompileError) : ¬RefusedFor pool none error := by
  rintro ⟨_, reason | ⟨_, _, short⟩⟩
  · cases reason
  · omega

namespace CompileUnit

variable {unit : CompileUnit} {config : Config} {declared : List (QName × ValueType)}

theorem map_code_firstFault? {method : MethodDraft} {types : NodeTypes} {call : NameCall}
    {type : ValueType} (known : call.operandType = some type)
    (checked : CheckedOperand method call.operand type) :
    (firstFault? (call.script config method types)).map CompileError.code =
      iteratorFault? config type := by
  rw [NameCall.firstFault?_script known, iteratorFault?]
  split_ifs with broken
  · rcases @firstFault?_operandScript_of_unnamed config method types _ _ broken.2 broken.1 checked
      with ⟨descriptor, fault⟩
    rw [fault]
    rfl
  · rw [firstFault?_operandScript (fun iterates => by_contra fun unnamed =>
      broken ⟨iterates, unnamed⟩) checked]
    rfl

theorem iteratorFault?_eq (config : Config) (type : ValueType) :
    iteratorFault? config type = none ∨
      iteratorFault? config type = some .malformedDescriptor := by
  rw [iteratorFault?]
  split_ifs
  · exact .inr rfl
  · exact .inl rfl

/-- When a method has been started, an iterator that cannot be named is the only reason left. -/
theorem refusal_of_finish (describes : unit.Describes config declared) {method : MethodDraft}
    (isStarted : unit.Started config declared method) {call : NameCall} {type : ValueType}
    (known : call.operandType = some type) (checked : CheckedOperand method call.operand type)
    (source : String) :
    match finish method call source unit.started with
    | .ok _ _ => iteratorFault? config type = none
    | .error error _ => RefusedFor unit.classDraft.pool (iteratorFault? config type) error := by
  have outcome := finish_outcome describes isStarted known checked source
  have fault :=
    @map_code_firstFault? config method unit.classDraft.nodeTypes call type known checked
  cases result : finish method call source unit.started with
  | ok compiled later =>
      rw [result] at outcome
      rw [← fault, outcome.sound]
      rfl
  | error error later =>
      rw [result] at outcome
      rcases outcome with ⟨rfl, short⟩ | isFault
      · exact ⟨by simp [CompileError.code, verificationCodes],
          .inr ⟨rfl, iteratorFault?_eq config type, short⟩⟩
      · rw [isFault, Option.map_some] at fault
        refine ⟨?_, .inl fault.symm⟩
        rcases iteratorFault?_eq config type with sound | broken
        · rw [sound] at fault
          cases fault
        · rw [broken, Option.some.injEq] at fault
          simp [fault, verificationCodes]

theorem refusal_of_compileCall (describes : unit.Describes config declared) (call : NameCall)
    (source : String) :
    match compileCall call source unit with
    | .ok _ _ => call.refusal? config declared = none
    | .error error _ => RefusedFor unit.classDraft.pool (call.refusal? config declared) error := by
  rw [NameCall.refusal?]
  cases course_compileCall describes call source with
  | undeclared name untyped fails =>
      rw [fails, untyped]
      exact ⟨by simp [CompileError.code, verificationCodes], .inl rfl⟩
  | otherType type typed notNode fails =>
      simp only [fails, typed, if_pos notNode]
      exact ⟨by simp [CompileError.code, verificationCodes], .inl rfl⟩
  | noRoom type name typed nodeLike full fails =>
      have isNode : ¬type.isNodeLike = false := by simp [nodeLike]
      simp only [fails, typed, if_neg isNode, if_pos full]
      exact ⟨by simp [CompileError.code, verificationCodes], .inl rfl⟩
  | finished type slots typed nodeLike room isStarted checked finishes =>
      have isNode : ¬type.isNodeLike = false := by simp [nodeLike]
      simp only [finishes, typed, if_neg isNode, if_neg (Nat.not_lt.mpr room)]
      exact @refusal_of_finish _ _ _ describes _ isStarted
        { call with operandType := some type } type rfl checked source

theorem compile_of_resolvedCall (describes : unit.Describes config declared) {source : String}
    {call : NameCall} (resolves : resolvedCall config source = .ok call) :
    compile source unit = compileCall call source unit := by
  have resolved : resolveCall source unit = .ok call unit := by
    rw [resolveCall, describes.sameConfig]
    simp only [resolvedCall] at resolves
    rw [resolves]
  rw [compile, bind_of_eq_ok resolved]

theorem compile_of_unresolved (describes : unit.Describes config declared) {source : String}
    {error : CompileError} (fails : resolvedCall config source = .error error) :
    compile source unit = .error error unit := by
  have refused : resolveCall source unit = .error error unit := by
    rw [resolveCall, describes.sameConfig]
    simp only [resolvedCall] at fails
    rw [fails]
  rw [compile, bind_of_eq_error refused]

theorem compileCall_of_compile (describes : unit.Describes config declared) {source : String}
    {method : CompiledMethod} {later : CompileUnit}
    (compiled : compile source unit = .ok method later) :
    ∃ call, resolvedCall config source = .ok call ∧
      compileCall call source unit = .ok method later := by
  cases resolves : resolvedCall config source with
  | error error =>
      rw [compile_of_unresolved describes resolves] at compiled
      cases compiled
  | ok call =>
      rw [compile_of_resolvedCall describes resolves] at compiled
      exact ⟨call, rfl, compiled⟩

theorem refusal?_of_resolvedCall {source : String} {call : NameCall}
    (resolves : resolvedCall config source = .ok call) :
    refusal? config declared source = call.refusal? config declared := by
  rw [refusal?]
  cases written : FunctionCall.read? source.toList with
  | none =>
      rw [resolvedCall, FunctionCall.ofText, written] at resolves
      cases resolves
  | some read =>
      have resolved : read.resolve config = .ok call := by
        rw [resolvedCall, FunctionCall.ofText, written] at resolves
        exact resolves
      simp only [resolved]

/-- A call with a step, in a unit without variables, is refused only if iterators have no name. -/
theorem refusal?_of_step (names : config.NamesIterator) {call : NameCall} {step : Step}
    (isStep : call.operand = some (.step step)) : call.refusal? config [] = none := by
  have small := config.firstFreeSlot.toNat_lt
  have room : ¬65535 < config.firstFreeSlot.toNat + totalWidth [] := by
    rw [totalWidth]
    omega
  simp only [NameCall.refusal?, isStep, operandType?, ValueType.isNodeLike, if_neg room,
    iteratorFault?, names]
  rfl

/-- A source is refused for the first reason that applies to it, unless the pool gets full. -/
theorem refusal_of_describes (describes : unit.Describes config declared) (source : String) :
    match compile source unit with
    | .ok _ _ => refusal? config declared source = none
    | .error error _ =>
        RefusedFor unit.classDraft.pool (refusal? config declared source) error := by
  rw [refusal?]
  cases written : FunctionCall.read? source.toList with
  | none =>
      have fails : resolvedCall config source =
          .error (.unreadable (failureAccount source.toList)) := by
        rw [resolvedCall, FunctionCall.ofText, written]
        rfl
      rw [compile_of_unresolved describes fails]
      exact ⟨by simp [CompileError.code, verificationCodes], .inl rfl⟩
  | some call =>
      have read : resolvedCall config source = call.resolve config := by
        rw [resolvedCall, FunctionCall.ofText, written]
        rfl
      dsimp only
      cases resolves : call.resolve config with
      | error cause =>
          rw [compile_of_unresolved describes (read.trans resolves)]
          refine ⟨?_, .inl rfl⟩
          rcases code_of_resolve resolves with isCode | isCode <;>
            simp [isCode, verificationCodes]
      | ok resolved =>
          rw [compile_of_resolvedCall describes (read.trans resolves)]
          exact refusal_of_compileCall describes resolved source

/-- A call that there is no reason to refuse is compiled if the pool has room for all constants. -/
theorem compileCall_of_accepted (describes : unit.Describes config declared) (call : NameCall)
    (source : String) (accepted : call.refusal? config declared = none)
    (room : unit.classDraft.pool.size + 31 ≤ unit.classDraft.pool.limit) :
    ∃ method later, compileCall call source unit = .ok method later := by
  have refused := refusal_of_compileCall describes call source
  cases result : compileCall call source unit with
  | ok method later => exact ⟨method, later, rfl⟩
  | error error later =>
      rw [result, accepted] at refused
      exact absurd refused (not_refusedFor_none room error)

/-- A source that there is no reason to refuse is compiled if the pool has room for all constants. -/
theorem compile_of_accepted (describes : unit.Describes config declared) (source : String)
    (accepted : refusal? config declared source = none)
    (room : unit.classDraft.pool.size + 31 ≤ unit.classDraft.pool.limit) :
    ∃ method later, compile source unit = .ok method later := by
  have refused := refusal_of_describes describes source
  cases result : compile source unit with
  | ok method later => exact ⟨method, later, rfl⟩
  | error error later =>
      rw [result, accepted] at refused
      exact absurd refused (not_refusedFor_none room error)

/--
Whatever has been done to a unit before, compiling a source fails for the first reason that applies
to it and succeeds if none does. A call that cannot be resolved fails with the error of that and
changes nothing. The pool can get full only while code is emitted, and only if less than thirty-one
of its entries are free; no failure is one of verification.
-/
theorem refusal_of_compile (className : String) (config : Config) (history : List UnitOperation)
    (source : String) :
    (∀ cause, resolvedCall config source = .error cause →
      compile source (after className config history) =
        .error cause (after className config history)) ∧
      match compile source (after className config history) with
      | .ok _ _ => refusal? config (declaredVariables config history) source = none
      | .error error _ =>
          RefusedFor (after className config history).classDraft.pool
            (refusal? config (declaredVariables config history) source) error := by
  have describes := describes_after className config history
  constructor
  · intro cause fails
    exact compile_of_unresolved describes fails
  · exact refusal_of_describes describes source

/-- A call of a function that there is not is refused for that in a new unit. -/
theorem refusal_of_compile_unknown :
    compile "f()" (after "A" {} []) =
      .error (.unknownFunction (.ofText "f") 0) (after "A" {} []) := by
  exact (refusal_of_compile "A" {} [] "f()").1 _ (by decide +kernel)

end CompileUnit

end NodeNames
