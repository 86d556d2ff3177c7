import NodeNames.Proofs.Unit.Growth
import NodeNames.Proofs.Unit.Independence
import Std.Data.String.ToNat
/-!
# Recompilation

A source that has been compiled once finds all that its code needs in the unit,
so that it can be compiled again at any time, even when there is no room left.
Only the name of the method is new, and only the number of methods grows.
-/

namespace NodeNames

open ConstantValue EmissionStep

section Emission

variable {config : Config} {slots : MethodDraft} {types : NodeTypes} {draft first : Draft}
  {values : List ConstantValue} {call : NameCall}

/-- Where the script of a call stays as it is, and finds all that it asks for. -/
theorem NameCall.emit_of_provided (represents : draft.classDraft.pool.Represents values)
    (sameConfig : draft.classDraft.config = config) (sameSlots : draft.method.SameSlots slots)
    (registered :
      draft.classDraft.nodeTypes.Extends ((call.script config slots types).foldl typesAfter types))
    (provided : Provided (call.script config slots types) values draft.classDraft.nodeTypes) :
    call.emit draft = .ok () (draft.withCode
      ((plan (call.script config slots types)).map (DecodedInstruction.encode (indexIn values)))) := by
  have sameScript : call.script draft.classDraft.config draft.method draft.classDraft.nodeTypes =
      call.script config slots types := by
    rw [sameConfig, NameCall.script_congr sameSlots, call.script_of_registered registered]
  rw [call.emit_eq_performAll represents, sameScript]
  exact performAll_of_provided represents provided

/-- A call that has been emitted is emitted again by adding the same code, and nothing else. -/
theorem NameCall.emit_again (represents : draft.classDraft.pool.Represents values)
    (emits : call.emit draft = .ok () first) :
    ∃ added, first.method.code = draft.method.code ++ added ∧
      call.emit first = .ok () (first.withCode added) := by
  have outcome := outcome_performAll represents
    (call.script draft.classDraft.config draft.method draft.classDraft.nodeTypes)
  rw [← call.emit_eq_performAll represents, emits] at outcome
  rcases outcome with ⟨room, sound, continues, code, _, types⟩
  have provided := @provided_of_room _ values draft.classDraft.nodeTypes _ sound room
  rw [← types] at provided
  have registered := Interner.Extends.refl first.classDraft.nodeTypes
  rw [types] at registered
  exact ⟨_, code, NameCall.emit_of_provided continues.represents continues.config
    (.of_frame continues.frame) (types ▸ registered) provided⟩

end Emission

namespace CompileUnit

variable {unit later current : CompileUnit} {config : Config}
  {declared : List (QName × ValueType)}

/-- A method that has been finished is finished again in every later unit, under a new name. -/
theorem Compiled.finish_again {slots currentSlots : MethodDraft} {call : NameCall} {source : String}
    {method : CompiledMethod} (compiled : unit.Compiled config slots call source method later)
    {type : ValueType} (known : call.operandType = some type)
    (checked : CheckedOperand currentSlots call.operand type)
    (describes : current.Describes config declared) (extended : current.Extends later)
    (sameSlots : currentSlots.SameSlots slots) (empty : currentSlots.code = []) :
    finish currentSlots call source current.started =
      .ok { method with name := currentSlots.name } current.started := by
  rcases compiled.encoded with ⟨held, represents, provided, code⟩
  rcases extended.pool held represents with ⟨all, longer, currentRepresents⟩
  have registered := extended.types
  rw [compiled.types] at registered
  have sameScript : call.script config currentSlots current.classDraft.nodeTypes =
      call.script config slots unit.classDraft.nodeTypes := by
    rw [NameCall.script_congr sameSlots, call.script_of_registered registered]
  have stillProvided := provided.of_longer longer extended.types
  have sameCode := provided.map_encode_of_longer longer
  rw [← code] at sameCode
  have emits := @NameCall.emit_of_provided _ _ _ ⟨current.classDraft, currentSlots⟩ _ _
    currentRepresents describes.sameConfig sameSlots registered stillProvided
  have decodes := Code.decode?_map_encode currentRepresents stillProvided.known
  rw [sameCode] at emits decodes
  rw [Draft.withCode, empty, List.nil_append] at emits
  rw [← sameScript] at decodes
  rw [finish_of_ok known checked emits (sameScript ▸ provided.sound) decodes, compiled.isMethod]
  rfl

/-- A call that has been compiled is compiled again in every later unit with the same variables. -/
theorem compileCall_again (describes : unit.Describes config declared) {call : NameCall}
    {source : String} {method : CompiledMethod}
    (compiled : compileCall call source unit = .ok method later)
    (currentDescribes : current.Describes config declared) (extended : current.Extends later) :
    compileCall call source current =
      .ok { method with name := s!"call{current.methodCount}" } current.started := by
  rcases compiled_of_compileCall describes compiled with
    ⟨type, slots, typed, nodeLike, room, isStarted, _, isCompiled⟩
  rcases compileCall_of_room currentDescribes source typed nodeLike room with
    ⟨currentSlots, currentStarted, checked, finishes⟩
  rw [finishes, ← currentStarted.name]
  exact isCompiled.finish_again rfl checked currentDescribes extended
    (currentStarted.sameSlots rfl isStarted) currentStarted.code

theorem compile_again (describes : unit.Describes config declared) {source : String}
    {method : CompiledMethod} (compiled : compile source unit = .ok method later)
    (currentDescribes : current.Describes config declared) (extended : current.Extends later) :
    compile source current =
      .ok { method with name := s!"call{current.methodCount}" } current.started := by
  rcases compileCall_of_compile describes compiled with ⟨call, resolves, callCompiled⟩
  rw [compile_of_resolvedCall currentDescribes resolves]
  exact compileCall_again describes callCompiled currentDescribes extended

/-- A method that is answered has the number of the method that the unit has started for it. -/
theorem name_of_answer (describes : unit.Describes config declared) {operation : UnitOperation}
    {method : CompiledMethod} (answered : operation.answer unit = .ok (some method)) :
    method.name = s!"call{unit.methodCount}" ∧
      unit.methodCount < (operation.perform unit).methodCount := by
  rcases compileCall_of_answer describes answered with ⟨call, source, compiled⟩
  rcases compiled_of_compileCall describes compiled with
    ⟨_, slots, _, _, _, isStarted, _, isCompiled⟩
  constructor
  · rw [isCompiled.isMethod]
    exact isStarted.name
  · rw [isCompiled.isLater]
    exact Nat.lt_succ_self _

theorem name_injective {first second : Nat} (same : s!"call{first}" = s!"call{second}") :
    first = second :=
  Nat.repr_injective ((String.append_right_inj "call").mp same)

/-- The next method gets a name that none of the methods answered so far has. -/
theorem name_ne_of_mem_journal (className : String) (config : Config)
    (history operations : List UnitOperation) {entry : JournalEntry}
    (isEntry : entry ∈ (after className config history).journal operations)
    {method : CompiledMethod} (answered : entry.answer = .ok (some method)) :
    method.name ≠ s!"call{(after className config (history ++ operations)).methodCount}" := by
  induction operations generalizing history with
  | nil => cases isEntry
  | cons operation others ih =>
      rcases List.mem_cons.mp isEntry with rfl | isLater
      · rcases name_of_answer (describes_after className config history) answered with
          ⟨isName, counted⟩
        rw [perform_after] at counted
        have grown := (extends_after className config (history ++ [operation]) others).methodCount
        rw [isName, after_cons]
        intro same
        have sameNumber := name_injective same
        omega
      · rw [perform_after] at isLater
        rw [after_cons]
        exact ih (history ++ [operation]) isLater

/-- Operations that declare nothing leave the variables of a unit as they are. -/
theorem declaredVariables_append_of_undeclaring {config : Config} {operations : List UnitOperation}
    (undeclaring : ∀ operation ∈ operations, operation.declaration? config = none)
    (history : List UnitOperation) :
    declaredVariables config (history ++ operations) = declaredVariables config history := by
  have nothing : operations.filterMap (UnitOperation.declaration? config) = [] :=
    List.filterMap_eq_nil_iff.mpr undeclaring
  rw [declaredVariables, List.filterMap_append, nothing, List.append_nil]
  rfl

/-- A source that has been compiled is compiled again after operations that declare nothing. -/
theorem compile_again_after (className : String) (config : Config) (history : List UnitOperation)
    {source : String} {method : CompiledMethod}
    (compiled : compile source (after className config history) = .ok method unit)
    {further : List UnitOperation}
    (undeclaring : ∀ operation ∈ further, operation.declaration? config = none) :
    let current := after className config (history ++ .compile source :: further)
    compile source current =
      .ok { method with name := s!"call{current.methodCount}" } current.started := by
  have extended := extends_after className config (history ++ [.compile source]) further
  rw [after_compile compiled, ← after_cons] at extended
  have current := describes_after className config (history ++ .compile source :: further)
  rw [declaredVariables_append_of_undeclaring] at current
  · exact compile_again (describes_after className config history) compiled current extended
  · intro operation isOperation
    rcases List.mem_cons.mp isOperation with rfl | isFurther
    · rfl
    · exact undeclaring operation isFurther

/--
A source that has been compiled is compiled again, whatever has been tried in between short of a
declaration and however full the pool is: to the same code with the same greatest depth, under a
name that no method of the unit has had, with no new constants and no new names of nodes. In the
same way, a call that has been emitted into a method is emitted again by the same code.
-/
theorem recompilation_idempotent (className : String) (config : Config) :
    (∀ history source method unit further,
      compile source (after className config history) = .ok method unit →
      (∀ operation ∈ further, operation.declaration? config = none) →
      ∃ again last,
        compile source (after className config (history ++ .compile source :: further)) =
          .ok again last ∧
        again.code = method.code ∧ again.maxStack = method.maxStack ∧
        last.classDraft =
          (after className config (history ++ .compile source :: further)).classDraft ∧
        ∀ entry ∈ (CompileUnit.new className config).journal (history ++ .compile source :: further),
          ∀ earlier, entry.answer = .ok (some earlier) → earlier.name ≠ again.name) ∧
    ∀ requests nodeTypes method (call : NameCall) first,
      call.emit ⟨ClassDraft.grown className config requests nodeTypes, method⟩ = .ok () first →
      ∃ added second, first.method.code = method.code ++ added ∧
        call.emit first = .ok () second ∧
        second.method.code = first.method.code ++ added ∧
        second.classDraft = first.classDraft := by
  constructor
  · intro history source method unit further compiled undeclaring
    refine ⟨_, _, compile_again_after className config history compiled undeclaring, rfl, rfl, rfl,
      ?_⟩
    intro entry isEntry earlier answered
    exact name_ne_of_mem_journal className config [] _ isEntry answered
  · intro requests nodeTypes method call first emits
    rcases ConstantPool.represents_addAll
      (ConstantPool.represents_withLimit config.maxPoolEntries) requests with
      ⟨_, values, _, represents⟩
    rcases @NameCall.emit_again ⟨ClassDraft.grown className config requests nodeTypes, method⟩ _ _
      call represents emits with ⟨added, code, emitted⟩
    exact ⟨added, _, code, emitted, rfl, rfl⟩

/-- A source in a unit that gets full before it is compiled again, and a call emitted twice. -/
theorem recompilation_idempotent_exhaustion :
    (∃ method unit again last,
      compile "name()" (after "A" { maxPoolEntries := 31 } []) = .ok method unit ∧
      compile "name()" (after "A" { maxPoolEntries := 31 }
          [.compile "name()", .compile "local-name(child::a)", .compile "namespace-uri(@a)"]) =
        .ok again last ∧
      again.code = method.code) ∧
    ∃ first second,
      NameCall.emit ⟨.name, .ofLocalPart "name", none, some .node⟩
        ⟨ClassDraft.grown "A" { maxPoolEntries := 31 } [] Interner.empty, .new "m" {}⟩ =
          .ok () first ∧
      NameCall.emit ⟨.name, .ofLocalPart "name", none, some .node⟩ first = .ok () second ∧
      second.classDraft = first.classDraft := by
  have idempotent := recompilation_idempotent "A" { maxPoolEntries := 31 }
  constructor
  · rcases compile_of_accepted (describes_after "A" { maxPoolEntries := 31 } []) "name()"
      (by decide +kernel) (by decide) with ⟨method, unit, compiled⟩
    rcases idempotent.1 [] "name()" method unit
      [.compile "local-name(child::a)", .compile "namespace-uri(@a)"] compiled (by simp; decide) with
      ⟨again, last, compiledAgain, sameCode, _⟩
    exact ⟨method, unit, again, last, compiled, compiledAgain, sameCode⟩
  · have represents := ConstantPool.represents_withLimit 31
    have sound := @NameCall.firstFault?_script { maxPoolEntries := 31 } (.new "m" {}) Interner.empty
      ⟨.name, .ofLocalPart "name", none, some .node⟩ _ rfl
    rcases @NameCall.emit_of_room
      ⟨ClassDraft.grown "A" { maxPoolEntries := 31 } [] Interner.empty, .new "m" {}⟩ [] represents
      (by decide) _ sound with ⟨first, emits⟩
    rcases idempotent.2 [] Interner.empty _ _ first emits with
      ⟨_, second, _, emitsAgain, _, unchanged⟩
    exact ⟨first, second, emits, emitsAgain, unchanged⟩

end CompileUnit

end NodeNames
