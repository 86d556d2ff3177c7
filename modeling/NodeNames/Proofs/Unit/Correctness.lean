import NodeNames.Proofs.Machine.Types
import NodeNames.Proofs.Unit.Growth
/-!
# Correctness of compiled code

Whatever a unit has compiled before, the code of a call leaves the value of the
call on the stack of every machine, and nothing else.
-/

namespace NodeNames

open EmissionStep

/-- A free choice of values for local slots and constants and of results for operations. -/
structure Interpretation (Value : Type) where
  slot : UInt16 → Value
  integer : Int → Value
  text : String → Value
  classObject : String → Value
  /-- The result of a method for a receiver, if it has one, and arguments. -/
  result : MethodReference → List Value → Value

namespace Interpretation

variable {Value : Type}

/-- The machine on which every slot can be loaded and every method accepts all arguments. -/
def machine (interpretation : Interpretation Value) : Machine Value where
  loadReference slot := some (interpretation.slot slot)
  loadInteger slot := some (interpretation.slot slot)
  loadReal slot := some (interpretation.slot slot)
  integer := interpretation.integer
  text := interpretation.text
  classObject := interpretation.classObject
  accepts _ _ _ := true
  result reference _ arguments := interpretation.result reference arguments

theorem apply_machine (interpretation : Interpretation Value) (config : Config)
    {operation : RuntimeOperation} (valued : operation.result ≠ .void) (arguments : List Value) :
    interpretation.machine.apply config operation arguments =
      some (interpretation.result (operation.reference config) arguments) := by
  rcases RuntimeOperation.result_signature config valued with ⟨type, isResult⟩
  rw [Machine.apply, isResult]
  rfl

theorem machine_respects (interpretation : Interpretation Value) (config : Config)
    (method : MethodDraft) :
    interpretation.machine.Respects config method
      { IsDocument := fun _ => True, Belongs := fun _ _ => True } where
  document := ⟨_, rfl, trivial⟩
  contextNode := ⟨_, rfl, trivial⟩
  integer _ := trivial
  nodeVariable _ _ _ := ⟨_, rfl, trivial⟩
  otherVariable _ _ _ _ _ := ⟨_, rfl, trivial⟩
  apply operation isOperation arguments _ :=
    ⟨_, interpretation.apply_machine config
      (RuntimeOperation.ofInterface_of_mem_all operation isOperation).1 arguments, trivial⟩

end Interpretation

/-- The values of the freest interpretation, which say how they have come about. -/
inductive Term where
  | slot (slot : UInt16)
  | integer (value : Int)
  | text (text : String)
  | classObject (name : String)
  | result (reference : MethodReference) (arguments : List Term)

/-- The interpretation that leaves everything as it is. -/
def Term.interpretation : Interpretation Term :=
  { slot, integer, text, classObject, result }

namespace CompileUnit

variable {unit : CompileUnit} {config : Config} {declared : List (QName × ValueType)}

/--
The code of a compiled call computes the value of the call on every machine, also when the unit has
grown. The name in the step of the call, if there is one, is registered.
-/
theorem run_of_compileCall (describes : unit.Describes config declared) {call : NameCall}
    {source : String} {method : CompiledMethod} {later : CompileUnit}
    (compiled : compileCall call source unit = .ok method later) :
    ∃ type draft, operandType? (typeOf? declared) call.operand = some type ∧
      config.firstFreeSlot.toNat + totalWidth declared ≤ 65535 ∧
      unit.Started config declared draft ∧ CheckedOperand draft call.operand type ∧
      (∀ step, call.operand = some (.step step) →
        (step.typeId? later.classDraft.nodeTypes.names).isSome) ∧
      ∀ {Value : Type} (machine : Machine Value) (current : CompileUnit), current.Extends later →
        method.code.run machine current.classDraft.pool [] =
          (call.value? machine config draft.local? later.classDraft.nodeTypes.names type).map
            ([·]) := by
  rcases compiled_of_compileCall describes compiled with
    ⟨type, draft, typed, _, room, isStarted, checked, isCompiled⟩
  have registered := @NameCall.typeId?_eq_typeIn? config draft _ describes.types
    { call with operandType := some type } (by simp)
  rw [← isCompiled.types] at registered
  refine ⟨type, draft, typed, room, isStarted, checked, ?_, ?_⟩
  · intro step isStep
    rw [registered step isStep]
    rfl
  · intro Value machine current extended
    rw [Code.run_of_decode? (isCompiled.decode?_of_extends extended)]
    exact NameCall.executeAll_script machine isStarted.reserves rfl checked isCompiled.sound
      registered

/--
Whatever has been done to a unit before, the code of a compiled source, run from an empty stack,
ends with exactly one value under every interpretation: that of the call, in which variables have
their slots one after the other and the name in a step, which is registered, has the type of its
place among the registered names. Unless there have been more operations than words of thirty-two
bits, this type is the integer that its word stands for.
-/
theorem run_of_compile {Value : Type} (interpretation : Interpretation Value) (className : String)
    (config : Config) (history : List UnitOperation) (source : String) {method : CompiledMethod}
    {unit : CompileUnit}
    (compiled : compile source (after className config history) = .ok method unit) :
    ∃ call type value, resolvedCall config source = .ok call ∧
      operandType? (typeOf? (declaredVariables config history)) call.operand = some type ∧
      call.value? interpretation.machine config
        (placeOf? config.firstFreeSlot.toNat (declaredVariables config history))
        unit.classDraft.nodeTypes.names type = some value ∧
      method.code.run interpretation.machine unit.classDraft.pool [] = some [value] ∧
      (history.length < 2 ^ 31 - firstNamedType → ∀ step selected,
        call.operand = some (.step step) →
        step.typeId? unit.classDraft.nodeTypes.names = some (some selected) →
          (Int32.ofNat selected).toInt = selected) := by
  have describes := describes_after className config history
  rcases compileCall_of_compile describes compiled with ⟨call, resolves, callCompiled⟩
  rcases run_of_compileCall describes callCompiled with
    ⟨type, draft, typed, _, isStarted, checked, registered, runs⟩
  rcases (interpretation.machine_respects config draft).callValue? checked registered with
    ⟨value, evaluated, _⟩
  have places : draft.local? =
      placeOf? config.firstFreeSlot.toNat (declaredVariables config history) :=
    funext isStarted.local?
  refine ⟨call, type, value, resolves, typed, places ▸ evaluated, ?_, ?_⟩
  · rw [runs _ unit (Extends.refl unit), evaluated]
    rfl
  · intro few step selected _ isType
    have isLater := after_compile compiled
    subst isLater
    have shorter : (history ++ [UnitOperation.compile source]).length ≤ 2 ^ 31 - firstNamedType := by
      rw [List.length_append, List.length_singleton]
      exact few
    exact toInt_type_after className config shorter (Step.lt_of_typeId? isType)

/-- The second name test of a unit: its step has the second type for named nodes. -/
theorem run_of_compile_nameTest :
    ∃ method unit,
      compile "name(attribute::a)" (after "A" {} [.compile "name(child::a)"]) = .ok method unit ∧
        unit.classDraft.nodeTypes.names = ["a", "@a"] ∧
        method.code.run Term.interpretation.machine unit.classDraft.pool [] =
          some [.result (RuntimeOperation.getNodeName.reference {})
            [.slot 1, .result (RuntimeOperation.next.reference {})
              [.result (RuntimeOperation.setStartNode.reference {})
                [.result (RuntimeOperation.getTypedAxisIterator.reference {})
                  [.slot 1, .integer 2, .integer 15], .slot 4]]]] := by
  have firstResolves : resolvedCall {} "name(child::a)" =
      .ok (.onOperand .name (.ofLocalPart "name") (.step ⟨.child, .name (.ofLocalPart "a")⟩)) := by
    decide +kernel
  have secondResolves : resolvedCall {} "name(attribute::a)" =
      .ok (.onOperand .name (.ofLocalPart "name")
        (.step ⟨.attributeAxis, .name (.ofLocalPart "a")⟩)) := by
    decide +kernel
  rcases compile_of_few "A" {} [] "name(child::a)" (by decide +kernel) (by decide) with
    ⟨_, firstUnit, firstCompiled⟩
  rcases compile_of_few "A" {} [.compile "name(child::a)"] "name(attribute::a)"
    (by decide +kernel) (by decide) with ⟨method, unit, compiled⟩
  have firstTypes := types_of_compile (describes_after "A" {} []) firstResolves firstCompiled
  have types := types_of_compile (describes_after "A" {} _) secondResolves compiled
  have isFirst : after "A" {} [.compile "name(child::a)"] = firstUnit := after_compile firstCompiled
  rw [isFirst, firstTypes] at types
  have names : unit.classDraft.nodeTypes.names = ["a", "@a"] := by
    rw [types]
    decide +kernel
  rcases run_of_compile Term.interpretation "A" {} _ "name(attribute::a)" compiled with
    ⟨call, type, value, resolves, typed, evaluated, ran, _⟩
  rw [secondResolves] at resolves
  cases resolves
  cases typed
  rw [names] at evaluated
  cases evaluated
  exact ⟨method, unit, compiled, names, ran⟩

end CompileUnit

end NodeNames
