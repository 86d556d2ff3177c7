import NodeNames.Proofs.Emission.Repetition
import NodeNames.Proofs.Machine.Meaning
/-!
# Registration

A call registers the name in its step, if there is one, and nothing else. The
type that its code pushes for the name is the place of the name among all names
that are registered afterwards.
-/

namespace NodeNames

open EmissionStep RuntimeOperation

/-- The steps that make the types in an expression known. -/
def Expression.registrations : Expression → List EmissionStep
  | step selected => selected.registrations
  | contextNode | variableReference _ | literal _ => []

/-- A key is found at its place only, since it stands nowhere else. -/
theorem idxOf?_of_position? {types : NodeTypes} (consistent : types.Consistent) {key : String}
    {position : Nat} (found : types.position? key = some position) :
    types.names.idxOf? key = some position := by
  rcases List.getElem?_eq_some_iff.mp (consistent.position?_eq_some_iff.mp found) with
    ⟨inside, isKey⟩
  refine List.idxOf?_eq_some_iff.mpr ⟨inside, isKey, ?_⟩
  intro earlier before sameKey
  have isEarlier := consistent.position?_eq_some_iff.mpr (List.getElem?_eq_some_iff.mpr ⟨_, sameKey⟩)
  rw [found, Option.some.injEq] at isEarlier
  exact Nat.ne_of_gt before isEarlier

/-- The types that steps have are those of unnamed nodes and those of registered names. -/
theorem Step.lt_of_typeId? {step : Step} {names : List String} {type : Nat}
    (isType : step.typeId? names = some (some type)) : type < firstNamedType + names.length := by
  have unnamed (kind : NodeKind) : kind.typeId < firstNamedType + names.length :=
    Nat.lt_of_lt_of_le kind.typeId_lt (Nat.le_add_right _ _)
  rcases step with ⟨axis, test⟩
  cases test with
  | anyNode => cases isType
  | kind kind =>
      cases isType
      exact unnamed kind
  | wildcard =>
      cases isType
      exact unnamed axis.principalKind
  | name name =>
      rcases Option.map_eq_some_iff.mp isType with ⟨place, found, sameType⟩
      cases sameType
      rcases List.idxOf?_eq_some_iff.mp found with ⟨inside, _⟩
      exact Nat.add_lt_add_left inside _

/-- The name in a step is registered, and the step has its type, when its steps have been taken. -/
theorem typeId?_eq_typeIn? {types : NodeTypes} (consistent : types.Consistent) (step : Step) :
    step.typeId? (NodeTypes.names (step.registrations.foldl typesAfter types)) =
      some (step.typeIn? types) := by
  rcases step with ⟨axis, test⟩
  cases test with
  | anyNode | kind kind | wildcard => rfl
  | name name =>
      have found := Interner.position?_intern types (NodeTypes.keyOf axis name)
      have place := idxOf?_of_position? (Interner.consistent_intern consistent _) found
      exact congrArg (Option.map fun position => some (firstNamedType + position)) place

/-- The type for a test is the same ever after the step has been emitted. -/
theorem typeIn?_of_registered {types later : NodeTypes} (step : Step)
    (extended : later.Extends (step.registrations.foldl typesAfter types)) :
    step.typeIn? later = step.typeIn? types := by
  rcases step with ⟨axis, test⟩
  cases test with
  | anyNode | kind kind | wildcard => rfl
  | name name =>
      have same := NodeTypes.register_of_extends extended
      simp only [Step.typeIn?, NodeTypes.typeOf, same]

section Types

variable {config : Config} {method : MethodDraft} {types : NodeTypes}

theorem foldl_typesAfter_script (expression : Expression) :
    (expression.script config method types).foldl typesAfter types =
      expression.registrations.foldl typesAfter types := by
  cases expression with
  | contextNode => rfl
  | literal value => rfl
  | variableReference name =>
      rw [Expression.script, Emission.variableSteps]
      split
      · rfl
      · split <;> rfl
  | step step =>
      rw [Expression.script, List.foldl_append]
      cases step.typeIn? types <;> rfl

theorem foldl_typesAfter_adaptScript (expression : Expression) (type : ValueType)
    (others : NodeTypes) :
    (expression.adaptScript config method type).foldl typesAfter others = others := by
  cases type <;> cases expression <;> rfl

/-- A call registers what its operand registers. -/
theorem NameCall.foldl_typesAfter_script (call : NameCall) (known : call.operandType ≠ none) :
    (call.script config method types).foldl typesAfter types =
      (call.operand.elim [] Expression.registrations).foldl typesAfter types := by
  cases isType : call.operandType with
  | none => exact absurd isType known
  | some type =>
      have invoked (operations : List RuntimeOperation) (others : NodeTypes) :
          (invocations config operations).foldl typesAfter others = others := by
        induction operations with
        | nil => rfl
        | cons operation rest ih => exact ih
      rw [script, isType]
      simp only [List.foldl_append, foldl_typesAfter_preparations, invoked]
      cases call.operand with
      | none => rfl
      | some expression =>
          simp only [Emission.operandScript, List.foldl_cons, typesAfter, List.foldl_append,
            NodeNames.foldl_typesAfter_script, foldl_typesAfter_adaptScript, Option.elim_some]

/-- The script of a call is the same ever after the call has been emitted. -/
theorem NameCall.script_of_registered {later : NodeTypes} (call : NameCall)
    (extended : later.Extends ((call.script config method types).foldl typesAfter types)) :
    call.script config method later = call.script config method types := by
  cases known : call.operandType with
  | none => simp only [script, known]
  | some type =>
      rw [NameCall.foldl_typesAfter_script call (by simp [known])] at extended
      simp only [script, known, Emission.operandScript]
      cases isOperand : call.operand with
      | none => rfl
      | some expression =>
          cases expression with
          | step step =>
              simp only [isOperand, Option.elim_some, Expression.registrations] at extended
              simp only [Expression.script, typeIn?_of_registered step extended]
          | contextNode | variableReference name | literal value => rfl

/-- The type that is pushed for a step is the one under which its name is registered. -/
theorem NameCall.typeId?_eq_typeIn? (consistent : types.Consistent) {call : NameCall}
    (known : call.operandType ≠ none) (step : Step) (isStep : call.operand = some (.step step)) :
    step.typeId? (NodeTypes.names ((call.script config method types).foldl typesAfter types)) =
      some (step.typeIn? types) := by
  rw [NameCall.foldl_typesAfter_script call known, isStep]
  exact NodeNames.typeId?_eq_typeIn? consistent step

/-- A call makes at most one name known. -/
theorem NameCall.size_foldl_typesAfter_script_le (call : NameCall) :
    ((call.script config method types).foldl typesAfter types).size ≤ types.size + 1 := by
  cases known : call.operandType with
  | none =>
      rw [script, known]
      exact Nat.le_succ _
  | some type =>
      rw [NameCall.foldl_typesAfter_script call (by simp [known])]
      cases call.operand with
      | none => exact Nat.le_succ _
      | some expression =>
          cases expression with
          | contextNode | variableReference name | literal value => exact Nat.le_succ _
          | step step =>
              rcases step with ⟨axis, test⟩
              cases test with
              | anyNode | kind kind | wildcard => exact Nat.le_succ _
              | name name => exact Interner.size_intern_le types _

end Types

namespace EmissionStep

/-- A step makes its name known when it succeeds, and none when it fails. -/
theorem types_perform (step : EmissionStep) (draft : Draft) :
    match step.perform draft with
    | .ok _ later => later.classDraft.nodeTypes = step.typesAfter draft.classDraft.nodeTypes
    | .error _ later => later.classDraft.nodeTypes = draft.classDraft.nodeTypes := by
  cases step with
  | fail error => rfl
  | register key => rfl
  | prepare reference =>
      rw [perform]
      cases result : ConstantPool.addMethodReference reference draft.classDraft.pool with
      | ok index pool =>
          rw [bind_of_eq_ok (Emission.onPool_of_eq_ok result)]
          rfl
      | error error pool => rw [bind_of_eq_error (Emission.onPool_of_eq_error result)]
  | append instruction =>
      rw [perform]
      cases result : instruction.assemble draft.classDraft.pool with
      | ok encoded pool =>
          rw [bind_of_eq_ok (Emission.onPool_of_eq_ok result)]
          rfl
      | error error pool => rw [bind_of_eq_error (Emission.onPool_of_eq_error result)]

/-- The names that steps have made known when they end are among those of all the steps. -/
theorem extends_types_performAll (steps : List EmissionStep) (draft : Draft) :
    (steps.foldl typesAfter draft.classDraft.nodeTypes).Extends
      (leftBehind (performAll steps draft)).classDraft.nodeTypes := by
  induction steps generalizing draft with
  | nil => exact Interner.Extends.refl _
  | cons step others ih =>
      have first := types_perform step draft
      rw [performAll]
      cases result : step.perform draft with
      | ok _ later =>
          rw [result] at first
          rw [bind_of_eq_ok result, List.foldl_cons, ← first]
          exact ih later
      | error error later =>
          rw [result] at first
          simp only at first
          rw [bind_of_eq_error result, leftBehind, first]
          exact extends_foldl_typesAfter _ _

end EmissionStep

end NodeNames
