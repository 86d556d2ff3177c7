import Mathlib.Data.List.Forall2
import NodeNames.Proofs.NameCall.Registration
/-!
# Symbolic code

Decoded code does not depend on a constant pool, but it still has the numbers
that named nodes have been given. In symbolic code these are replaced by the
keys of the nodes. What is emitted for a call is, in these terms, always the
same, whatever constants and names a class has had before.
-/

namespace NodeNames

open EmissionStep

/-- A decoded instruction, or the push of the type of named nodes by their key. -/
inductive SymbolicInstruction where
  | plain (instruction : DecodedInstruction)
  | pushType (key : String)
deriving DecidableEq

namespace DecodedInstruction

/-- The symbolic form of an instruction; an integer from the first named type on is a type. -/
def symbolic? (names : List String) : DecodedInstruction → Option SymbolicInstruction
  | pushInteger value =>
      if value < firstNamedType then some (.plain (.pushInteger value))
      else names[(value - firstNamedType).toNat]?.map .pushType
  | instruction => some (.plain instruction)

/-- An instruction that does not push the type of named nodes. -/
def IsPlain (instruction : DecodedInstruction) : Prop :=
  ∀ names, instruction.symbolic? names = some (.plain instruction)

theorem isPlain_pushInteger {value : Nat} (small : value < firstNamedType) :
    (pushInteger value).IsPlain := by
  intro names
  rw [symbolic?, if_pos (by exact_mod_cast small)]

/-- An integer that stands for a key is the type of one of the names. -/
theorem lt_of_symbolic? {names : List String} {value : Int} {symbol : SymbolicInstruction}
    (stands : (pushInteger value).symbolic? names = some symbol) :
    value < firstNamedType + names.length := by
  rw [symbolic?] at stands
  split_ifs at stands with small
  · omega
  · rcases Option.map_eq_some_iff.mp stands with ⟨key, found, _⟩
    have inside := (List.getElem?_eq_some_iff.mp found).1
    omega

/-- The type of a key that has been registered stands for the key. -/
theorem symbolic?_typeOf {types : NodeTypes} (consistent : types.Consistent) (key : String) :
    (pushInteger (types.typeOf key)).symbolic? (types.register key).2.names =
      some (.pushType key) := by
  rcases NodeTypes.position?_register types key with ⟨position, found, isType⟩
  have atPosition :=
    (Interner.consistent_intern consistent key).position?_eq_some_iff.mp found
  have isNamed : ¬((types.typeOf key : Nat) : Int) < firstNamedType := by
    rw [NodeTypes.typeOf, isType]
    omega
  have isPosition : (((types.typeOf key : Nat) : Int) - firstNamedType).toNat = position := by
    rw [NodeTypes.typeOf, isType]
    omega
  rw [symbolic?, if_neg isNamed, isPosition]
  exact congrArg (Option.map _) atPosition

/-- Instructions of classes with given names that have the same symbolic form. -/
def Alike (firstNames secondNames : List String) (first second : DecodedInstruction) : Prop :=
  ∃ symbol, first.symbolic? firstNames = some symbol ∧ second.symbolic? secondNames = some symbol

theorem IsPlain.alike {instruction : DecodedInstruction} (isPlain : instruction.IsPlain)
    (firstNames secondNames : List String) :
    Alike firstNames secondNames instruction instruction :=
  ⟨_, isPlain firstNames, isPlain secondNames⟩

/-- Code whose instructions are alike has one symbolic form. -/
theorem mapM_symbolic?_of_alike {firstNames secondNames : List String}
    {first second : List DecodedInstruction}
    (alike : List.Forall₂ (Alike firstNames secondNames) first second) :
    ∃ code, first.mapM (symbolic? firstNames) = some code ∧
      second.mapM (symbolic? secondNames) = some code := by
  induction alike with
  | nil => exact ⟨[], rfl, rfl⟩
  | cons sameFirst _ ih =>
      rcases sameFirst with ⟨symbol, isFirst, isSecond⟩
      rcases ih with ⟨rest, firstRest, secondRest⟩
      exact ⟨symbol :: rest, by simp [isFirst, firstRest], by simp [isSecond, secondRest]⟩

end DecodedInstruction

open DecodedInstruction

theorem RuntimeOperation.isPlain_invocation (operation : RuntimeOperation) (config : Config) :
    (operation.invocation config).IsPlain := by
  intro names
  rw [invocation]
  cases operation.kind <;> rfl

namespace EmissionStep

variable {firstNames secondNames : List String}

/-- Scripts that emit code of one symbolic form in classes with given names. -/
def EmitAlike (firstNames secondNames : List String) (first second : List EmissionStep) : Prop :=
  List.Forall₂ (Alike firstNames secondNames) (plan first) (plan second)

theorem EmitAlike.append {first second firstRest secondRest : List EmissionStep}
    (alike : EmitAlike firstNames secondNames first second)
    (rest : EmitAlike firstNames secondNames firstRest secondRest) :
    EmitAlike firstNames secondNames (first ++ firstRest) (second ++ secondRest) := by
  rw [EmitAlike, plan_append, plan_append]
  exact List.rel_append alike rest

theorem EmitAlike.cons {instruction : DecodedInstruction} {first second : List EmissionStep}
    (isPlain : instruction.IsPlain) (rest : EmitAlike firstNames secondNames first second) :
    EmitAlike firstNames secondNames (.append instruction :: first)
      (.append instruction :: second) :=
  List.Forall₂.cons (isPlain.alike firstNames secondNames) rest

theorem emitAlike_nil : EmitAlike firstNames secondNames [] [] :=
  .nil

end EmissionStep

section Scripts

open RuntimeOperation

variable {config : Config} {slots : MethodDraft} {firstNames secondNames : List String}

theorem emitAlike_invocations (operations : List RuntimeOperation) :
    EmitAlike firstNames secondNames (invocations config operations)
      (invocations config operations) := by
  induction operations with
  | nil => exact emitAlike_nil
  | cons operation others ih => exact .cons (operation.isPlain_invocation config) ih

/-- Preparing references emits nothing. -/
theorem emitAlike_preparations (operations : List RuntimeOperation) :
    EmitAlike firstNames secondNames (preparations config operations)
      (preparations config operations) := by
  rw [EmitAlike, plan_preparations]
  exact .nil

theorem emitAlike_variableSteps (name : QName) :
    EmitAlike firstNames secondNames (Emission.variableSteps config slots name)
      (Emission.variableSteps config slots name) := by
  rw [Emission.variableSteps]
  cases slots.local? name with
  | none => exact emitAlike_nil
  | some declared =>
      rcases declared with ⟨slot, type⟩
      cases type with
      | nodeSet => exact .cons (fun _ => rfl) (.cons (isPlain_invocation _ _) emitAlike_nil)
      | node | int | boolean | real | reference | string | void =>
          exact .cons (fun _ => rfl) emitAlike_nil

theorem emitAlike_adaptScript (expression : Expression) (type : ValueType) :
    EmitAlike firstNames secondNames (expression.adaptScript config slots type)
      (expression.adaptScript config slots type) := by
  have started (invoked : RuntimeOperation) :
      EmitAlike firstNames secondNames [.append (invoked.invocation config)]
        [.append (invoked.invocation config)] :=
    .cons (isPlain_invocation _ _) emitAlike_nil
  cases type with
  | node => exact emitAlike_nil
  | reference => exact .cons (isPlain_invocation _ _) (started _)
  | nodeSet =>
      cases expression with
      | variableReference name => exact started _
      | contextNode | step selected | literal value =>
          exact .cons (fun _ => rfl) (.cons (isPlain_invocation _ _) (started _))
  | string | boolean | int | real | void => cases expression <;> exact started _

/-- The type that is pushed for the test of a step has one symbolic form. -/
theorem Step.emitAlike_iteratorSteps {first second : NodeTypes}
    (firstConsistent : first.Consistent) (secondConsistent : second.Consistent) (step : Step) :
    EmitAlike (step.registrations.foldl typesAfter first).names
      (step.registrations.foldl typesAfter second).names
      (Emission.iteratorSteps config slots step.axis (step.typeIn? first))
      (Emission.iteratorSteps config slots step.axis (step.typeIn? second)) := by
  rcases step with ⟨axis, test⟩
  have axisIsPlain : (pushInteger axis.id).IsPlain := by
    apply isPlain_pushInteger
    cases axis <;> decide
  have kindIsPlain (kind : NodeKind) : (pushInteger kind.typeId).IsPlain := by
    apply isPlain_pushInteger
    cases kind <;> decide
  cases test with
  | anyNode =>
      exact .cons (fun _ => rfl) (.cons axisIsPlain (.cons (isPlain_invocation _ _) emitAlike_nil))
  | kind kind =>
      exact .cons (fun _ => rfl) (.cons axisIsPlain (.cons (kindIsPlain kind)
        (.cons (isPlain_invocation _ _) emitAlike_nil)))
  | wildcard =>
      exact .cons (fun _ => rfl) (.cons axisIsPlain (.cons (kindIsPlain axis.principalKind)
        (.cons (isPlain_invocation _ _) emitAlike_nil)))
  | name name =>
      -- the two types may differ, but each of them stands for the key of the name
      have sameKey := And.intro
        (symbolic?_typeOf firstConsistent (NodeTypes.keyOf axis name))
        (symbolic?_typeOf secondConsistent (NodeTypes.keyOf axis name))
      exact .cons (fun _ => rfl) (.cons axisIsPlain (List.Forall₂.cons ⟨_, sameKey⟩
        (.cons ((isPlain_invocation _ _).alike _ _) .nil)))

variable {first second : NodeTypes} (firstConsistent : first.Consistent)
  (secondConsistent : second.Consistent)

include firstConsistent secondConsistent

theorem Expression.emitAlike_script (expression : Expression) :
    EmitAlike (expression.registrations.foldl typesAfter first).names
      (expression.registrations.foldl typesAfter second).names
      (expression.script config slots first) (expression.script config slots second) := by
  cases expression with
  | contextNode | literal value => exact .cons (fun _ => rfl) emitAlike_nil
  | variableReference name => exact emitAlike_variableSteps name
  | step selected =>
      have registered : EmitAlike (selected.registrations.foldl typesAfter first).names
          (selected.registrations.foldl typesAfter second).names
          selected.registrations selected.registrations := by
        rw [EmitAlike, plan_registrations]
        exact .nil
      exact registered.append
        (selected.emitAlike_iteratorSteps firstConsistent secondConsistent)

/-- What is emitted for a call has one symbolic form in all classes. -/
theorem NameCall.emitAlike_script {call : NameCall} (known : call.operandType ≠ none) :
    EmitAlike ((call.script config slots first).foldl typesAfter first).names
      ((call.script config slots second).foldl typesAfter second).names
      (call.script config slots first) (call.script config slots second) := by
  rw [NameCall.foldl_typesAfter_script call known, NameCall.foldl_typesAfter_script call known]
  cases isType : call.operandType with
  | none => exact absurd isType known
  | some type =>
      simp only [script, isType]
      refine (emitAlike_preparations _).append (.append ?_ (emitAlike_invocations _))
      cases call.operand with
      | none => exact .cons (fun _ => rfl) (.cons (fun _ => rfl) emitAlike_nil)
      | some expression =>
          exact .cons (fun _ => rfl) (.append
            (expression.emitAlike_script firstConsistent secondConsistent)
            (emitAlike_adaptScript expression type))

end Scripts

end NodeNames
