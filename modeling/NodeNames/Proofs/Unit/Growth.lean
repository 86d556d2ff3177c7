import Mathlib.Algebra.Ring.Nat
import Mathlib.Data.List.Induction
import NodeNames.Proofs.Code.Listing
import NodeNames.Proofs.NameCall.Registration
import NodeNames.Proofs.Unit.Invisibility
/-!
# Growth of units

Whatever is done to a unit, and whether it succeeds, fails or stops half way for
lack of room, the unit only grows: constants keep their indices, names keep
their types, and methods are counted on. So a method that has been compiled
stays what it is, although its code refers to the unit by indices.
-/

namespace NodeNames

open ConstantValue EmissionStep

/-- The call that an operation compiles, if its source can be resolved. -/
def UnitOperation.call? (config : Config) : UnitOperation → Option NameCall
  | declare _ _ => none
  | compile source => (resolvedCall config source).toOption
  | compileCall call _ => some call

namespace CompileUnit

/-- A later unit, with all constants and all names at their places. -/
structure Extends (later earlier : CompileUnit) : Prop where
  pool : ∀ values, earlier.classDraft.pool.Represents values →
    ∃ held, values <+: held ∧ later.classDraft.pool.Represents held
  types : later.classDraft.nodeTypes.Extends earlier.classDraft.nodeTypes
  methodCount : earlier.methodCount ≤ later.methodCount

theorem Extends.refl (unit : CompileUnit) : unit.Extends unit where
  pool values represents := ⟨values, List.prefix_rfl, represents⟩
  types := Interner.Extends.refl _
  methodCount := Nat.le_refl _

theorem Extends.trans {first second third : CompileUnit} (later : third.Extends second)
    (earlier : second.Extends first) : third.Extends first where
  pool values represents := by
    rcases earlier.pool values represents with ⟨held, longer, between⟩
    rcases later.pool held between with ⟨all, longest, last⟩
    exact ⟨all, longer.trans longest, last⟩
  types := later.types.trans earlier.types
  methodCount := Nat.le_trans earlier.methodCount later.methodCount

variable {unit : CompileUnit} {config : Config} {declared : List (QName × ValueType)}

theorem extends_started (unit : CompileUnit) : unit.started.Extends unit where
  pool values represents := ⟨values, List.prefix_rfl, represents⟩
  types := Interner.Extends.refl _
  methodCount := Nat.le_succ _

theorem extends_emitted (describes : unit.Describes config declared) (method : MethodDraft)
    (call : NameCall) : (unit.emitted method call).Extends unit where
  pool values represents := by
    rcases @NameCall.continues_emit ⟨unit.classDraft, method⟩ values represents call with
      ⟨held, longer, continues⟩
    exact ⟨held, longer, continues.represents⟩
  types := by
    rcases describes.pool with ⟨values, represents⟩
    rcases @NameCall.continues_emit ⟨unit.classDraft, method⟩ values represents call with
      ⟨held, _, continues⟩
    exact continues.types
  methodCount := Nat.le_succ _

theorem extends_declareVariable (name : QName) (type : ValueType) (unit : CompileUnit) :
    (leftBehind (declareVariable name type unit)).Extends unit := by
  rw [declareVariable]
  cases unit.classDraft.config.resolve name with
  | error error => exact Extends.refl unit
  | ok resolved =>
      exact ⟨fun values represents => ⟨values, List.prefix_rfl, represents⟩,
        Interner.Extends.refl _, Nat.le_refl _⟩

/--
What holds of a unit, of the unit with a method started, with code emitted for any call, and with
any variable declared, holds after every operation.
-/
theorem holds_perform {motive : CompileUnit → Prop} (describes : unit.Describes config declared)
    (untouched : motive unit) (begun : motive unit.started)
    (emitted : ∀ method call, motive (unit.emitted method call))
    (declares : ∀ name type, motive (leftBehind (declareVariable name type unit)))
    (operation : UnitOperation) : motive (operation.perform unit) := by
  cases operation with
  | declare name type => exact declares name type
  | compileCall call source =>
      exact leftBehind_compileCall describes untouched begun emitted call source
  | compile source =>
      rw [UnitOperation.perform]
      cases resolves : resolvedCall config source with
      | error error =>
          rw [compile_of_unresolved describes resolves]
          exact untouched
      | ok call =>
          rw [compile_of_resolvedCall describes resolves]
          exact leftBehind_compileCall describes untouched begun emitted call source

/-- An operation extends the unit, whether it succeeds or not. -/
theorem extends_perform (describes : unit.Describes config declared) (operation : UnitOperation) :
    (operation.perform unit).Extends unit :=
  holds_perform (motive := fun later => later.Extends unit) describes (Extends.refl unit)
    (extends_started unit) (extends_emitted describes)
    (fun name type => extends_declareVariable name type unit) operation

/-- The code of a compiled call means its script in every later unit. -/
theorem Compiled.decode?_of_extends {slots : MethodDraft} {call : NameCall} {source : String}
    {method : CompiledMethod} {later current : CompileUnit}
    (compiled : unit.Compiled config slots call source method later)
    (extended : current.Extends later) :
    method.code.decode? current.classDraft.pool =
      some (plan (call.script config slots unit.classDraft.nodeTypes)) := by
  rcases compiled.encoded with ⟨values, represents, _, _⟩
  rcases extended.pool values represents with ⟨held, longer, grown⟩
  exact Code.decode?_of_longer represents grown longer compiled.decode?

theorem after_cons (className : String) (config : Config) (history further : List UnitOperation)
    (operation : UnitOperation) :
    after className config (history ++ operation :: further) =
      after className config (history ++ [operation] ++ further) := by
  rw [List.append_assoc, List.singleton_append]

theorem after_compile {className : String} {config : Config} {history : List UnitOperation}
    {source : String} {method : CompiledMethod}
    (compiled : compile source (after className config history) = .ok method unit) :
    after className config (history ++ [.compile source]) = unit := by
  rw [← perform_after, UnitOperation.perform, compiled]
  rfl

/-- A source that is compiled registers the name in its step, if it has one, and nothing else. -/
theorem types_of_compile (describes : unit.Describes config declared) {source : String}
    {call : NameCall} (resolves : resolvedCall config source = .ok call) {method : CompiledMethod}
    {later : CompileUnit} (compiled : compile source unit = .ok method later) :
    later.classDraft.nodeTypes =
      (call.operand.elim [] Expression.registrations).foldl typesAfter
        unit.classDraft.nodeTypes := by
  rcases compileCall_of_compile describes compiled with ⟨other, otherResolves, callCompiled⟩
  rw [resolves, Except.ok.injEq] at otherResolves
  subst otherResolves
  rcases compiled_of_compileCall describes callCompiled with ⟨_, _, _, _, _, _, _, isCompiled⟩
  rw [isCompiled.types, NameCall.foldl_typesAfter_script _ (by simp)]

/-- A longer history extends the unit. -/
theorem extends_after (className : String) (config : Config)
    (history further : List UnitOperation) :
    (after className config (history ++ further)).Extends (after className config history) := by
  induction further generalizing history with
  | nil =>
      rw [List.append_nil]
      exact Extends.refl _
  | cons operation others ih =>
      have step := extends_perform (describes_after className config history) operation
      rw [perform_after] at step
      rw [after_cons]
      exact (ih (history ++ [operation])).trans step

section Size

theorem size_emitted_le (describes : unit.Describes config declared) (method : MethodDraft)
    (call : NameCall) :
    (unit.emitted method call).classDraft.pool.size ≤ unit.classDraft.pool.size + 31 := by
  rcases describes.pool with ⟨values, represents⟩
  have emission := @NameCall.emit_eq_performAll ⟨unit.classDraft, method⟩ _ represents call
  have continues := @continues_performAll ⟨unit.classDraft, method⟩ _ represents
    (call.script unit.classDraft.config method unit.classDraft.nodeTypes)
  rw [← emission] at continues
  rw [emitted, represents.size_eq, continues.represents.size_eq]
  exact NameCall.length_absorb_le _ _ _

/-- An operation adds at most thirty-one constants. -/
theorem size_perform_le (describes : unit.Describes config declared) (operation : UnitOperation) :
    (operation.perform unit).classDraft.pool.size ≤ unit.classDraft.pool.size + 31 := by
  refine holds_perform (motive := fun later =>
    later.classDraft.pool.size ≤ unit.classDraft.pool.size + 31) describes
    (Nat.le_add_right _ _) (Nat.le_add_right _ _) (size_emitted_le describes) ?_ operation
  intro name type
  rw [declareVariable]
  cases unit.classDraft.config.resolve name <;> exact Nat.le_add_right _ _

theorem size_after_le (className : String) (config : Config) (history : List UnitOperation) :
    (after className config history).classDraft.pool.size ≤ 31 * history.length := by
  induction history using List.reverseRecOn with
  | nil => exact Nat.le_refl _
  | append_singleton history operation ih =>
      have grown := size_perform_le (describes_after className config history) operation
      rw [perform_after] at grown
      rw [List.length_append, List.length_singleton]
      omega

theorem size_types_emitted_le (describes : unit.Describes config declared) (method : MethodDraft)
    (call : NameCall) :
    (unit.emitted method call).classDraft.nodeTypes.size ≤ unit.classDraft.nodeTypes.size + 1 := by
  rcases describes.pool with ⟨values, represents⟩
  have emission := @NameCall.emit_eq_performAll ⟨unit.classDraft, method⟩ _ represents call
  rw [emitted, emission]
  exact Nat.le_trans (extends_types_performAll _ _).size_le
    call.size_foldl_typesAfter_script_le

/-- An operation registers at most one name. -/
theorem size_types_perform_le (describes : unit.Describes config declared)
    (operation : UnitOperation) :
    (operation.perform unit).classDraft.nodeTypes.size ≤ unit.classDraft.nodeTypes.size + 1 := by
  refine holds_perform (motive := fun later =>
    later.classDraft.nodeTypes.size ≤ unit.classDraft.nodeTypes.size + 1) describes
    (Nat.le_succ _) (Nat.le_succ _) (size_types_emitted_le describes) ?_ operation
  intro name type
  rw [declareVariable]
  cases unit.classDraft.config.resolve name <;> exact Nat.le_succ _

theorem length_names_after_le (className : String) (config : Config)
    (history : List UnitOperation) :
    (after className config history).classDraft.nodeTypes.names.length ≤ history.length := by
  induction history using List.reverseRecOn with
  | nil => exact Nat.le_refl _
  | append_singleton history operation ih =>
      have grown := size_types_perform_le (describes_after className config history) operation
      rw [perform_after] at grown
      rw [List.length_append, List.length_singleton]
      exact Nat.le_trans grown (Nat.succ_le_succ ih)

/--
Types are words of thirty-two bits as long as there are no more operations than such words for named
nodes: the number of a type is the integer that its word stands for.
-/
theorem toInt_type_after (className : String) (config : Config) {history : List UnitOperation}
    (few : history.length ≤ 2 ^ 31 - firstNamedType) {type : Nat}
    (isType : type <
      firstNamedType + (after className config history).classDraft.nodeTypes.names.length) :
    (Int32.ofNat type).toInt = type := by
  have bounded := length_names_after_le className config history
  have isWord : firstNamedType ≤ 2 ^ 31 := by decide
  exact Int32.toInt_ofNat_of_lt (by omega)

/-- A pool with thirty-one entries for each operation has room for one more. -/
theorem room_of_few (className : String) {config : Config} {history : List UnitOperation}
    (few : 31 * (history.length + 1) ≤ min config.maxPoolEntries poolCapacity) :
    (after className config history).classDraft.pool.size + 31 ≤
      (after className config history).classDraft.pool.limit := by
  have size := size_after_le className config history
  rw [(describes_after className config history).limit]
  omega

/-- A pool with thirty-one entries for each operation never gets full. -/
theorem compile_of_few (className : String) (config : Config) (history : List UnitOperation)
    (source : String)
    (accepted : refusal? config (declaredVariables config history) source = none)
    (few : 31 * (history.length + 1) ≤ min config.maxPoolEntries poolCapacity) :
    ∃ method later, compile source (after className config history) = .ok method later :=
  compile_of_accepted (describes_after className config history) source accepted
    (room_of_few className few)

theorem compileCall_of_few (className : String) (config : Config) (history : List UnitOperation)
    (call : NameCall) (source : String)
    (accepted : call.refusal? config (declaredVariables config history) = none)
    (few : 31 * (history.length + 1) ≤ min config.maxPoolEntries poolCapacity) :
    ∃ method later, compileCall call source (after className config history) = .ok method later :=
  compileCall_of_accepted (describes_after className config history) call source accepted
    (room_of_few className few)

end Size

/-- A method is answered by compiling the call of the operation. -/
theorem compileCall_call?_of_answer (describes : unit.Describes config declared)
    {operation : UnitOperation} {method : CompiledMethod}
    (answered : operation.answer unit = .ok (some method)) :
    ∃ call source, operation.call? config = some call ∧
      compileCall call source unit = .ok method (operation.perform unit) := by
  cases operation with
  | declare name type =>
      rcases ok_of_map_answerOf answered with ⟨_, isMethod, _⟩
      cases isMethod
  | compile source =>
      rcases ok_of_map_answerOf answered with ⟨_, isMethod, compiled⟩
      cases isMethod
      rcases compileCall_of_compile describes compiled with ⟨call, resolves, succeeds⟩
      have isCall : UnitOperation.call? config (.compile source) = some call := by
        rw [UnitOperation.call?, resolves]
        rfl
      exact ⟨call, source, isCall, succeeds⟩
  | compileCall call source =>
      rcases ok_of_map_answerOf answered with ⟨_, isMethod, compiled⟩
      cases isMethod
      exact ⟨call, source, rfl, compiled⟩

/-- A method is answered by compiling a call. -/
theorem compileCall_of_answer (describes : unit.Describes config declared)
    {operation : UnitOperation} {method : CompiledMethod}
    (answered : operation.answer unit = .ok (some method)) :
    ∃ call source, compileCall call source unit = .ok method (operation.perform unit) := by
  rcases compileCall_call?_of_answer describes answered with ⟨call, source, _, compiled⟩
  exact ⟨call, source, compiled⟩

/-- Only declarations answer nothing, and they leave the class as it is. -/
theorem classDraft_of_silent {operation : UnitOperation}
    (answered : operation.answer unit = .ok none) :
    (operation.perform unit).classDraft = unit.classDraft := by
  cases operation with
  | declare name type =>
      rw [UnitOperation.perform, declareVariable]
      cases unit.classDraft.config.resolve name <;> rfl
  | compile source | compileCall call source =>
      rcases ok_of_map_answerOf answered with ⟨_, isNone, _⟩
      cases isNone

/--
Whatever is done to a unit after it has answered a method, with success or without, the method is
listed as it was at first, its code passes verification with the greatest depth that was recorded,
and it leaves one slot on the stack.
-/
theorem valid_ever_after (className : String) (config : Config) (history : List UnitOperation)
    (operation : UnitOperation) {method : CompiledMethod}
    (answered : operation.answer (after className config history) = .ok (some method))
    (further : List UnitOperation) :
    (after className config (history ++ operation :: further)).listing method =
        (after className config (history ++ [operation])).listing method ∧
      method.code.verify
          (after className config (history ++ operation :: further)).classDraft.pool =
        .ok ⟨method.maxStack, 1⟩ ∧
      method.code.stackDelta
          (after className config (history ++ operation :: further)).classDraft.pool =
        .ok 1 := by
  have describes := describes_after className config history
  rcases compileCall_of_answer describes answered with ⟨call, source, succeeds⟩
  rw [perform_after] at succeeds
  rcases compiled_of_compileCall describes succeeds with
    ⟨type, slots, _, _, _, _, checked, compiled⟩
  have climbs := compiled.climbs rfl checked
  rcases compiled.encoded with ⟨values, represents, _, _⟩
  rw [after_cons]
  rcases (extends_after className config (history ++ [operation]) further).pool values represents
    with ⟨held, longer, grown⟩
  have decodes := Code.decode?_of_longer represents grown longer compiled.decode?
  refine ⟨Code.listing_of_longer represents grown longer compiled.decode?, ?_, ?_⟩
  · have verified := Code.verifyFrom_of_climbs decodes climbs (Nat.le_refl 0) 0
    rwa [Nat.zero_max] at verified
  · exact Code.stackDelta_of_climbs decodes climbs

/-- The first method of a unit with a small pool outlives calls for which the pool has no room. -/
theorem valid_ever_after_exhaustion :
    ∃ method, UnitOperation.answer (after "A" { maxPoolEntries := 31 } []) (.compile "name()") =
        .ok (some method) ∧
      method.code.verify (after "A" { maxPoolEntries := 31 } [.compile "name()",
          .compile "local-name(child::a)", .compile "namespace-uri(@a)",
          .compile "name(a)"]).classDraft.pool =
        .ok ⟨method.maxStack, 1⟩ := by
  rcases compile_of_accepted (describes_after "A" { maxPoolEntries := 31 } []) "name()"
    (by decide +kernel) (by decide) with ⟨method, unit, compiled⟩
  have answered : UnitOperation.answer (after "A" { maxPoolEntries := 31 } [])
      (.compile "name()") = .ok (some method) := by
    rw [UnitOperation.answer, compiled]
    rfl
  exact ⟨method, answered, (valid_ever_after "A" { maxPoolEntries := 31 } [] _ answered _).2.1⟩

end CompileUnit

end NodeNames
