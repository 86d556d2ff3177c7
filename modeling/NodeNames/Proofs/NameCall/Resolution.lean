import NodeNames.NameCall.Basic
import NodeNames.Proofs.Sequencing
/-!
# Resolving calls

Resolving a call fails for a qualifier that is not bound or a function that is
not known. When it succeeds, the operand comes from the first argument, and
names keep their local parts.
-/

namespace NodeNames

variable {config : Config}

section Failure

variable {error : CompileError}

theorem code_of_resolve_name {name : QName} (fails : config.resolve name = .error error) :
    error.code = .unboundQualifier := by
  rw [Config.resolve] at fails
  split at fails
  · cases fails
  · split at fails
    · cases fails
    · cases fails
      rfl

theorem code_of_resolve_expression {expression : Expression}
    (fails : expression.resolve config = .error error) : error.code = .unboundQualifier := by
  unfold Expression.resolve at fails
  split at fails
  · rcases bind_eq_error_iff.mp fails with named | ⟨_, _, returned⟩
    · exact code_of_resolve_name named
    · cases returned
  · rcases bind_eq_error_iff.mp fails with named | ⟨_, _, returned⟩
    · exact code_of_resolve_name named
    · cases returned
  · cases fails

theorem code_of_mapM_resolve {arguments : List Expression}
    (fails : arguments.mapM (Expression.resolve config) = .error error) :
    error.code = .unboundQualifier := by
  induction arguments with
  | nil => cases fails
  | cons argument others ih =>
      rw [List.mapM_cons] at fails
      rcases bind_eq_error_iff.mp fails with first | ⟨_, _, rest⟩
      · exact code_of_resolve_expression first
      · rcases bind_eq_error_iff.mp rest with others | ⟨_, _, returned⟩
        · exact ih others
        · cases returned

/-- Resolving a call fails for an unbound qualifier or an unknown function. -/
theorem code_of_resolve {call : FunctionCall} (fails : call.resolve config = .error error) :
    error.code = .unboundQualifier ∨ error.code = .unknownFunction := by
  rcases bind_eq_error_iff.mp fails with named | ⟨name, _, fails⟩
  · exact .inl (code_of_resolve_name named)
  · cases known : NameFunction.ofQName? config name with
    | none =>
        rw [known] at fails
        cases fails
        exact .inr rfl
    | some function =>
        rw [known] at fails
        rcases bind_eq_error_iff.mp fails with operands | ⟨_, _, fails⟩
        · exact .inl (code_of_mapM_resolve operands)
        · split at fails
          · cases fails
          · cases fails
          · cases fails
            exact .inr rfl

end Failure

section Success

variable {axis : Axis} {name : QName}

theorem localPart_of_resolve {tested : QName} (resolves : config.resolve tested = .ok name) :
    name.localPart = tested.localPart := by
  rw [Config.resolve] at resolves
  split at resolves
  · cases resolves
    rfl
  · split at resolves
    · cases resolves
      rfl
    · cases resolves

theorem Expression.of_resolve_nameTest {argument : Expression}
    (resolves : argument.resolve config = .ok (.step ⟨axis, .name name⟩)) :
    ∃ tested, argument = .step ⟨axis, .name tested⟩ ∧ config.resolve tested = .ok name := by
  unfold Expression.resolve at resolves
  split at resolves
  · rcases bind_eq_ok_iff.mp resolves with ⟨_, _, returned⟩
    cases returned
  · rcases bind_eq_ok_iff.mp resolves with ⟨resolved, resolvedName, returned⟩
    cases returned
    exact ⟨_, rfl, resolvedName⟩
  · next other notNamed =>
      cases resolves
      exact absurd rfl (notNamed _ _)

/-- The operand of a resolved call comes from the first argument of the written call. -/
theorem FunctionCall.of_resolve {written : FunctionCall} {call : NameCall} {operand : Expression}
    (resolves : written.resolve config = .ok call) (isOperand : call.operand = some operand) :
    ∃ argument others, written.arguments = argument :: others ∧
      argument.resolve config = .ok operand := by
  rcases bind_eq_ok_iff.mp resolves with ⟨_, _, resolves⟩
  split at resolves
  · cases resolves
  · rcases bind_eq_ok_iff.mp resolves with ⟨operands, mapped, resolves⟩
    split at resolves
    · cases resolves
      cases isOperand
    · cases resolves
      cases isOperand
      cases isArguments : written.arguments with
      | nil =>
          rw [isArguments] at mapped
          cases mapped
      | cons argument others =>
          rw [isArguments, List.mapM_cons] at mapped
          rcases bind_eq_ok_iff.mp mapped with ⟨first, isFirst, rest⟩
          rcases bind_eq_ok_iff.mp rest with ⟨_, _, returned⟩
          cases returned
          exact ⟨argument, others, rfl, isFirst⟩
    · cases resolves

end Success

end NodeNames
