import NodeNames.Proofs.NameCall.Faults
/-!
# The steps of a call

Few kinds of steps make up the script of an expression or a call, whatever the
expression is and whether the call has been checked. What holds of each kind
holds of everything that is emitted.
-/

namespace NodeNames

open EmissionStep RuntimeOperation

/-- The steps that scripts are made of, where references of given operations are prepared. -/
inductive EmissionStep.Regular (config : Config) (prepared : List RuntimeOperation) :
    EmissionStep → Prop where
  | fail (error : CompileError) : Regular config prepared (.fail error)
  | register (key : String) : Regular config prepared (.register key)
  | loadReference (slot : UInt16) : Regular config prepared (.append (.loadReference slot))
  | loadInteger (slot : UInt16) : Regular config prepared (.append (.loadInteger slot))
  | loadReal (slot : UInt16) : Regular config prepared (.append (.loadReal slot))
  | pushInteger (value : Int) : Regular config prepared (.append (.pushInteger value))
  | pushText (text : String) : Regular config prepared (.append (.pushText text))
  | prepare {operation : RuntimeOperation} (isPrepared : operation ∈ prepared) :
      Regular config prepared (.prepare (operation.reference config))
  | invoke {operation : RuntimeOperation} (isOperation : operation ∈ all) :
      Regular config prepared (.append (operation.invocation config))

section Scripts

variable {config : Config} {method : MethodDraft} {types : NodeTypes}
  (prepared : List RuntimeOperation)

theorem Emission.regular_variableSteps (name : QName) :
    ∀ step ∈ variableSteps config method name, step.Regular config prepared := by
  rw [variableSteps]
  cases method.local? name with
  | none => simpa using .fail _
  | some declared =>
      rcases declared with ⟨slot, type⟩
      cases type with
      | node | int | boolean => simpa using .loadInteger slot
      | real => simpa using .loadReal slot
      | reference | string | void => simpa using .loadReference slot
      | nodeSet => simpa using ⟨.loadReference slot, .invoke (by decide)⟩

theorem Emission.regular_iteratorSteps (axis : Axis) (type : Option Nat) :
    ∀ step ∈ iteratorSteps config method axis type, step.Regular config prepared := by
  cases type with
  | none =>
      simpa [iteratorSteps] using ⟨.loadReference _, .pushInteger _, .invoke (by decide)⟩
  | some type =>
      simpa [iteratorSteps] using
        ⟨.loadReference _, .pushInteger _, .pushInteger _, .invoke (by decide)⟩

theorem Step.regular_registrations (selected : Step) :
    ∀ step ∈ selected.registrations, step.Regular config prepared := by
  rcases selected with ⟨axis, test⟩
  cases test with
  | name name => simpa [registrations] using .register _
  | anyNode | kind _ | wildcard => simp [registrations]

namespace Expression

theorem regular_script (expression : Expression) :
    ∀ step ∈ expression.script config method types, step.Regular config prepared := by
  cases expression with
  | contextNode => simpa [script] using .loadInteger _
  | variableReference name => exact Emission.regular_variableSteps prepared name
  | step selected =>
      rw [script, List.forall_mem_append]
      exact ⟨selected.regular_registrations prepared, Emission.regular_iteratorSteps prepared _ _⟩
  | literal value => simpa [script] using .pushText value

theorem regular_startScript (expression : Expression) (type : ValueType) :
    ∀ step ∈ expression.startScript config method type, step.Regular config prepared := by
  cases type with
  | nodeSet =>
      cases expression with
      | variableReference name => simp [startScript]
      | contextNode | step selected | literal value =>
          simpa [startScript] using ⟨.loadInteger _, .invoke (by decide)⟩
  | node | reference | string | boolean | int | real | void => simp [startScript]

theorem regular_adaptScript (expression : Expression) (type : ValueType) :
    ∀ step ∈ expression.adaptScript config method type, step.Regular config prepared := by
  cases type with
  | node => simp [adaptScript]
  | reference => simpa [adaptScript] using ⟨.invoke (by decide), .invoke (by decide)⟩
  | nodeSet | string | boolean | int | real | void =>
      simp only [adaptScript, List.forall_mem_append]
      exact ⟨expression.regular_startScript prepared _, by simpa using .invoke (by decide)⟩

end Expression

theorem Emission.regular_operandScript (operand : Option Expression) (type : ValueType) :
    ∀ step ∈ operandScript config method types operand type, step.Regular config prepared := by
  cases operand with
  | none => simpa [operandScript] using ⟨.loadReference _, .loadInteger _⟩
  | some expression =>
      simp only [operandScript, List.forall_mem_cons, List.forall_mem_append]
      exact ⟨.loadReference _, expression.regular_script prepared,
        expression.regular_adaptScript prepared type⟩

/-- The script of a call, checked or not, is regular and prepares what the call ends with. -/
theorem NameCall.regular_script (call : NameCall) :
    ∀ step ∈ call.script config method types,
      step.Regular config call.function.finalOperations := by
  rw [script]
  cases call.operandType with
  | none => simpa using .fail _
  | some type =>
      simp only [List.forall_mem_append]
      refine ⟨?_, Emission.regular_operandScript _ _ _, ?_⟩
      · intro step isStep
        rcases List.mem_map.mp isStep with ⟨operation, isFinal, rfl⟩
        exact .prepare isFinal
      · intro step isStep
        rcases List.mem_map.mp isStep with ⟨operation, isFinal, rfl⟩
        exact .invoke (NameFunction.result_of_mem_finalOperations isFinal).1

end Scripts

end NodeNames
