import NodeNames.Proofs.NameCall.Emission
import NodeNames.Proofs.NameCall.Faults
/-!
# Qualifiers in calls

A resolved name carries the qualifier that it has been written with to the end.
Without the qualifiers a call has the same script, and the bindings of qualifiers
play no part in a script. Steps in turn see nothing of a draft but the constants,
the node types and the code.
-/

namespace NodeNames

open EmissionStep RuntimeOperation

/-- The configuration with other namespaces for qualifiers. -/
def Config.withNamespaces (config : Config) (namespaces : Std.TreeMap String String) : Config :=
  { config with namespaces }

/-- The name without its qualifier. -/
def QName.unqualified (name : QName) : QName :=
  { name with qualifier := none }

def NodeTest.unqualified : NodeTest → NodeTest
  | name tested => name tested.unqualified
  | other => other

/-- The expression with its names unqualified. -/
def Expression.unqualified : Expression → Expression
  | variableReference name => variableReference name.unqualified
  | step { axis, test } => step { axis, test := test.unqualified }
  | other => other

/-- The call with its names unqualified. -/
def NameCall.unqualified (call : NameCall) : NameCall :=
  { call with
    name := call.name.unqualified
    operand := call.operand.map Expression.unqualified }

section Scripts

variable {config : Config} {method : MethodDraft} {types : NodeTypes}
  {namespaces : Std.TreeMap String String}

theorem descriptor_withNamespaces :
    ValueType.descriptor (config.withNamespaces namespaces) = ValueType.descriptor config := by
  funext type
  cases type <;> rfl

theorem reference_withNamespaces (operation : RuntimeOperation) :
    operation.reference (config.withNamespaces namespaces) = operation.reference config := by
  have sameOwner : operation.owner.className (config.withNamespaces namespaces) =
      operation.owner.className config := by
    cases operation.owner <;> rfl
  simp only [reference, RuntimeOperation.descriptor, ValueType.methodDescriptor,
    descriptor_withNamespaces, sameOwner]

theorem invocation_withNamespaces (operation : RuntimeOperation) :
    operation.invocation (config.withNamespaces namespaces) = operation.invocation config := by
  rw [invocation, invocation, reference_withNamespaces]

theorem Expression.script_withNamespaces (expression : Expression) :
    expression.script (config.withNamespaces namespaces) method types =
      expression.script config method types := by
  cases expression with
  | contextNode => rfl
  | literal value => rfl
  | variableReference name =>
      simp only [script, Emission.variableSteps, invocation_withNamespaces]
  | step selected =>
      simp only [script]
      cases selected.typeIn? types <;>
        simp only [Emission.iteratorSteps, invocation_withNamespaces]

theorem Expression.adaptScript_withNamespaces (expression : Expression) (type : ValueType) :
    expression.adaptScript (config.withNamespaces namespaces) method type =
      expression.adaptScript config method type := by
  cases type <;> simp only [adaptScript, startScript, invocation_withNamespaces]

/-- What is emitted for a call does not depend on what qualifiers stand for. -/
theorem NameCall.script_withNamespaces (call : NameCall) :
    call.script (config.withNamespaces namespaces) method types =
      call.script config method types := by
  have sameOperand (type : ValueType) :
      Emission.operandScript (config.withNamespaces namespaces) method types call.operand type =
        Emission.operandScript config method types call.operand type := by
    cases call.operand with
    | none => rfl
    | some expression =>
        simp only [Emission.operandScript, expression.script_withNamespaces,
          expression.adaptScript_withNamespaces]
  simp only [script, preparations, invocations, reference_withNamespaces,
    invocation_withNamespaces, sameOperand]

theorem Expression.script_unqualified {expression : Expression}
    (known : ∀ name, expression = .variableReference name → method.local? name ≠ none) :
    expression.unqualified.script config method types = expression.script config method types := by
  cases expression with
  | contextNode => rfl
  | literal value => rfl
  | variableReference name =>
      rcases Option.ne_none_iff_exists'.mp (known name rfl) with ⟨place, found⟩
      have stillFound : method.local? name.unqualified = some place := found
      simp only [unqualified, script, Emission.variableSteps, found, stillFound]
  | step selected =>
      rcases selected with ⟨axis, test⟩
      cases test <;> rfl

theorem Expression.adaptScript_unqualified (expression : Expression) (type : ValueType) :
    expression.unqualified.adaptScript config method type =
      expression.adaptScript config method type := by
  cases type <;> cases expression <;> rfl

theorem CheckedOperand.known {name : QName} {type : ValueType}
    (checked : CheckedOperand method (some (.variableReference name)) type) :
    method.local? name ≠ none := by
  cases checked with
  | nodeVariable found | nodeSetVariable found | referenceVariable found => simp [found]

theorem Emission.operandScript_unqualified {operand : Option Expression} {type : ValueType}
    (checked : CheckedOperand method operand type) :
    operandScript config method types (operand.map Expression.unqualified) type =
      operandScript config method types operand type := by
  cases operand with
  | none => rfl
  | some expression =>
      have sameScript := @Expression.script_unqualified config method types expression
        fun name isVariable => CheckedOperand.known (isVariable ▸ checked)
      simp only [operandScript, Option.map_some, sameScript, expression.adaptScript_unqualified]

/-- A checked call is emitted in the same way without the qualifiers of its names. -/
theorem NameCall.script_unqualified {call : NameCall} {type : ValueType}
    (isType : call.operandType = some type) (checked : CheckedOperand method call.operand type) :
    call.unqualified.script config method types = call.script config method types := by
  simp only [script, unqualified, isType, Emission.operandScript_unqualified checked]

end Scripts

/-- An operand has the type of its unqualified form where variables are told apart so. -/
theorem operandType?_unqualified {typeOf? : QName → Option ValueType}
    (blind : ∀ name, typeOf? name.unqualified = typeOf? name) (operand : Option Expression) :
    operandType? typeOf? (operand.map Expression.unqualified) = operandType? typeOf? operand := by
  cases operand with
  | none => rfl
  | some expression =>
      cases expression with
      | variableReference name => exact blind name
      | contextNode | step selected | literal value => rfl

/-- Drafts that steps see no difference between. -/
structure Draft.LooksLike (first second : Draft) : Prop where
  pool : first.classDraft.pool = second.classDraft.pool
  types : first.classDraft.nodeTypes = second.classDraft.nodeTypes
  name : first.method.name = second.method.name
  code : first.method.code = second.method.code

namespace EmissionStep

/-- Results that are reached or missed for the same reason, with drafts that look alike. -/
inductive SameResult : EStateM.Result CompileError Draft Unit →
    EStateM.Result CompileError Draft Unit → Prop where
  | ok {first second : Draft} (alike : first.LooksLike second) :
      SameResult (.ok () first) (.ok () second)
  | error {first second : Draft} (error : CompileError) (alike : first.LooksLike second) :
      SameResult (.error error first) (.error error second)

variable {first second : Draft}

/-- A step does the same to drafts that look alike. -/
theorem perform_congr (alike : first.LooksLike second) (step : EmissionStep) :
    SameResult (step.perform first) (step.perform second) := by
  have samePool := alike.pool
  cases step with
  | fail error => exact .error error alike
  | register key =>
      exact .ok ⟨samePool, congrArg (fun types => (types.register key).2) alike.types, alike.name,
        alike.code⟩
  | prepare reference =>
      rw [perform]
      cases result : ConstantPool.addMethodReference reference first.classDraft.pool with
      | ok index pool =>
          rw [bind_of_eq_ok (Emission.onPool_of_eq_ok result),
            bind_of_eq_ok (Emission.onPool_of_eq_ok (samePool ▸ result))]
          exact .ok ⟨rfl, alike.types, alike.name, alike.code⟩
      | error error pool =>
          rw [bind_of_eq_error (Emission.onPool_of_eq_error result),
            bind_of_eq_error (Emission.onPool_of_eq_error (samePool ▸ result))]
          exact .error error ⟨rfl, alike.types, alike.name, alike.code⟩
  | append instruction =>
      rw [perform]
      cases result : instruction.assemble first.classDraft.pool with
      | ok encoded pool =>
          rw [bind_of_eq_ok (Emission.onPool_of_eq_ok result),
            bind_of_eq_ok (Emission.onPool_of_eq_ok (samePool ▸ result))]
          exact .ok ⟨rfl, alike.types, alike.name, congrArg (· ++ [encoded]) alike.code⟩
      | error error pool =>
          rw [bind_of_eq_error (Emission.onPool_of_eq_error result),
            bind_of_eq_error (Emission.onPool_of_eq_error (samePool ▸ result))]
          exact .error error ⟨rfl, alike.types, alike.name, alike.code⟩

/-- Steps do the same to drafts that look alike. -/
theorem performAll_congr (alike : first.LooksLike second) (steps : List EmissionStep) :
    SameResult (performAll steps first) (performAll steps second) := by
  induction steps generalizing first second with
  | nil => exact .ok alike
  | cons step others ih =>
      have same := perform_congr alike step
      rw [performAll]
      generalize firstResult : step.perform first = firstOutcome at same
      generalize secondResult : step.perform second = secondOutcome at same
      cases same with
      | ok stillAlike =>
          rw [bind_of_eq_ok firstResult, bind_of_eq_ok secondResult]
          exact ih stillAlike
      | error error leftAlike =>
          rw [bind_of_eq_error firstResult, bind_of_eq_error secondResult]
          exact .error error leftAlike

end EmissionStep

end NodeNames
