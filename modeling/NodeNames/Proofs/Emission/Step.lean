import NodeNames.Emission.Draft
import NodeNames.Proofs.Code.Decoding
import NodeNames.Proofs.Interner
/-!
# Steps of emission

Emission is made of few kinds of steps, which succeed and fail for reasons that
can be read off the steps and the values of the constant pool. Performing steps
appends the decoded instructions among them, encoded for the pool at the end.
-/

namespace NodeNames

open ConstantValue

namespace Emission

variable {Answer : Type} {action : PoolAction Answer} {draft : Draft} {pool : ConstantPool}

theorem onPool_of_eq_ok {answer : Answer}
    (succeeds : action draft.classDraft.pool = .ok answer pool) :
    onPool action draft =
      .ok answer { draft with classDraft := { draft.classDraft with pool } } := by
  rw [onPool, succeeds]

theorem onPool_of_eq_error {error : CompileError}
    (fails : action draft.classDraft.pool = .error error pool) :
    onPool action draft =
      .error error { draft with classDraft := { draft.classDraft with pool } } := by
  rw [onPool, fails]

theorem exists_of_onPool_eq_ok {answer : Answer} {later : Draft}
    (succeeds : onPool action draft = .ok answer later) :
    ∃ pool, action draft.classDraft.pool = .ok answer pool ∧
      later = { draft with classDraft := { draft.classDraft with pool } } := by
  cases result : action draft.classDraft.pool with
  | ok found pool =>
      rw [onPool_of_eq_ok result] at succeeds
      cases succeeds
      exact ⟨pool, rfl, rfl⟩
  | error error pool =>
      rw [onPool_of_eq_error result] at succeeds
      cases succeeds

end Emission

/-- One step of emission. -/
inductive EmissionStep where
  /-- Gives up. -/
  | fail (error : CompileError)
  /-- Adds the reference of a method that is invoked later. -/
  | prepare (reference : MethodReference)
  /-- Registers the key of named nodes. -/
  | register (key : String)
  /-- Assembles an instruction and appends it. -/
  | append (instruction : DecodedInstruction)

namespace EmissionStep

def perform : EmissionStep → Emission Unit
  | fail error => throw error
  | prepare reference => do
      let _ ← Emission.onPool (ConstantPool.addMethodReference reference)
  | register key =>
      modify fun draft =>
        { draft with
          classDraft := { draft.classDraft with
            nodeTypes := (draft.classDraft.nodeTypes.register key).2 } }
  | append instruction => do
      Emission.append (← Emission.onPool instruction.assemble)

/-- Performs steps in order, up to the first failure. -/
def performAll : List EmissionStep → Emission Unit
  | [] => return ()
  | step :: others => do
      step.perform
      performAll others

/-- Why a step fails whatever is in the pool. -/
def fault? : EmissionStep → Option CompileError
  | fail error => some error
  | prepare reference => (method reference).fault?
  | register _ => none
  | append instruction => instruction.fault?

def wanted : EmissionStep → List ConstantValue
  | fail _ | register _ => []
  | prepare reference => (method reference).constituents
  | append instruction => instruction.wanted

def instruction? : EmissionStep → Option DecodedInstruction
  | fail _ | prepare _ | register _ => none
  | append instruction => some instruction

def typesAfter (types : NodeTypes) : EmissionStep → NodeTypes
  | register key => (types.register key).2
  | fail _ | prepare _ | append _ => types

/-- Why steps fail whatever is in the pool: the fault of the first one that has one. -/
def firstFault? (steps : List EmissionStep) : Option CompileError :=
  steps.findSome? fault?

/-- The constants that steps ask the pool for before one of them fails of its own. -/
def needs : List EmissionStep → List ConstantValue
  | [] => []
  | step :: others =>
      match step.fault? with
      | some _ => []
      | none => step.wanted ++ needs others

def plan (steps : List EmissionStep) : List DecodedInstruction :=
  steps.filterMap instruction?

@[simp] theorem firstFault?_nil : firstFault? [] = none := rfl

@[simp] theorem firstFault?_cons (step : EmissionStep) (others : List EmissionStep) :
    firstFault? (step :: others) = step.fault?.or (firstFault? others) := by
  rw [firstFault?, List.findSome?_cons]
  cases step.fault? <;> rfl

@[simp] theorem firstFault?_append (first second : List EmissionStep) :
    firstFault? (first ++ second) = (firstFault? first).or (firstFault? second) :=
  List.findSome?_append

theorem firstFault?_eq_none_iff {steps : List EmissionStep} :
    firstFault? steps = none ↔ ∀ step ∈ steps, step.fault? = none :=
  List.findSome?_eq_none_iff

theorem needs_append (first second : List EmissionStep) :
    needs (first ++ second) =
      needs first ++ if firstFault? first = none then needs second else [] := by
  induction first with
  | nil => simp [needs]
  | cons step others ih =>
      cases faulty : step.fault? with
      | none => simp [needs, faulty, ih]
      | some error => simp [needs, faulty]

theorem needs_of_sound {steps : List EmissionStep} (sound : firstFault? steps = none) :
    needs steps = steps.flatMap wanted := by
  induction steps with
  | nil => rfl
  | cons step others ih =>
      rw [firstFault?_cons] at sound
      cases faulty : step.fault? with
      | none =>
          rw [faulty, Option.none_or] at sound
          rw [needs, faulty, List.flatMap_cons, ← ih sound]
      | some error => simp [faulty] at sound

end EmissionStep

/-- All of a method but its code. -/
def MethodDraft.frame (method : MethodDraft) : MethodDraft :=
  { method with code := [] }

/-- A later draft of the same class and method, with given values in the constant pool. -/
structure Draft.Continues (later earlier : Draft) (values : List ConstantValue) : Prop where
  name : later.classDraft.name = earlier.classDraft.name
  config : later.classDraft.config = earlier.classDraft.config
  frame : later.method.frame = earlier.method.frame
  limit : later.classDraft.pool.limit = earlier.classDraft.pool.limit
  represents : later.classDraft.pool.Represents values
  types : later.classDraft.nodeTypes.Extends earlier.classDraft.nodeTypes
  consistent : earlier.classDraft.nodeTypes.Consistent → later.classDraft.nodeTypes.Consistent

theorem Draft.Continues.trans {first second third : Draft} {values held : List ConstantValue}
    (later : third.Continues second held) (earlier : second.Continues first values) :
    third.Continues first held where
  name := later.name.trans earlier.name
  config := later.config.trans earlier.config
  frame := later.frame.trans earlier.frame
  limit := later.limit.trans earlier.limit
  represents := later.represents
  types := later.types.trans earlier.types
  consistent := later.consistent ∘ earlier.consistent

namespace EmissionStep

/-- What comes of emission that asks the pool for some constants, with the given outcome. -/
def Outcome (draft : Draft) (outcome : List ConstantValue × Bool) (fault? : Option CompileError)
    (added : List DecodedInstruction) (types : NodeTypes) :
    EStateM.Result CompileError Draft Unit → Prop
  | .ok _ later =>
      outcome.2 = true ∧ fault? = none ∧ later.Continues draft outcome.1 ∧
        later.method.code = draft.method.code ++ added.map (DecodedInstruction.encode
          (indexIn outcome.1)) ∧
        (∀ instruction ∈ added, ∀ value ∈ instruction.constant?, value ∈ outcome.1) ∧
        later.classDraft.nodeTypes = types
  | .error error later =>
      later.Continues draft outcome.1 ∧
        (outcome.2 = false ∧ error = .poolExhausted draft.classDraft.pool.limit ∨
          outcome.2 = true ∧ fault? = some error)

variable {draft : Draft} {values : List ConstantValue}

theorem continues_refl (represents : draft.classDraft.pool.Represents values) :
    draft.Continues draft values :=
  ⟨rfl, rfl, rfl, rfl, represents, Interner.Extends.refl _, id⟩

/-- Work on the pool and on the code continues a draft. -/
theorem continues_withPool {pool : ConstantPool} {held : List ConstantValue} {code : Code}
    (sameLimit : pool.limit = draft.classDraft.pool.limit) (represents : pool.Represents held) :
    ({ classDraft := { draft.classDraft with pool }
       method := { draft.method with code } } : Draft).Continues draft held :=
  ⟨rfl, rfl, rfl, sameLimit, represents, Interner.Extends.refl _, id⟩

theorem perform_of_fault {step : EmissionStep} {error : CompileError}
    (faulty : step.fault? = some error) (draft : Draft) :
    step.perform draft = .error error draft := by
  cases step with
  | fail cause =>
      simp only [fault?, Option.some.injEq] at faulty
      rw [← faulty]
      rfl
  | prepare reference =>
      have refused :=
        @ConstantPool.add_of_fault (method reference) error faulty draft.classDraft.pool
      exact bind_of_eq_error (Emission.onPool_of_eq_error refused)
  | register key => simp [fault?] at faulty
  | append instruction =>
      have refused := DecodedInstruction.assemble_of_fault faulty draft.classDraft.pool
      exact bind_of_eq_error (Emission.onPool_of_eq_error refused)

/-- A step without a fault of its own asks for its constants and does its part. -/
theorem outcome_perform (represents : draft.classDraft.pool.Represents values)
    {step : EmissionStep} (sound : step.fault? = none) :
    Outcome draft (absorb draft.classDraft.pool.limit values step.wanted) none
      step.instruction?.toList (step.typesAfter draft.classDraft.nodeTypes)
      (step.perform draft) := by
  cases step with
  | fail error => simp [fault?] at sound
  | register key =>
      exact ⟨rfl, rfl, ⟨rfl, rfl, rfl, rfl, represents, Interner.extends_intern _ _,
        fun consistent => Interner.consistent_intern consistent _⟩, by simp [instruction?],
        by simp [instruction?], rfl⟩
  | prepare reference =>
      have answers := @ConstantPool.answers_add _ _ represents (method reference) sound
      rw [ConstantValue.add] at answers
      rw [wanted, perform]
      cases result : ConstantPool.addMethodReference reference draft.classDraft.pool with
      | ok index pool =>
          rw [result] at answers
          rcases answers with ⟨room, sameLimit, held, -⟩
          rw [bind_of_eq_ok (Emission.onPool_of_eq_ok result)]
          exact ⟨room, rfl, continues_withPool sameLimit held, by simp [instruction?],
            by simp [instruction?], rfl⟩
      | error error pool =>
          rw [result] at answers
          rcases answers with ⟨full, sameLimit, held, exhausted⟩
          rw [bind_of_eq_error (Emission.onPool_of_eq_error result)]
          exact ⟨continues_withPool sameLimit held, .inl ⟨full, exhausted⟩⟩
  | append instruction =>
      have answers := DecodedInstruction.answers_assemble represents sound
      rw [wanted, perform]
      cases result : instruction.assemble draft.classDraft.pool with
      | ok encoded pool =>
          rw [result] at answers
          rcases answers with ⟨room, sameLimit, held, rfl⟩
          rw [bind_of_eq_ok (Emission.onPool_of_eq_ok result)]
          refine ⟨room, rfl, continues_withPool sameLimit held, rfl, ?_, rfl⟩
          intro other isOther value isConstant
          simp only [instruction?, Option.toList_some, List.mem_singleton] at isOther
          subst isOther
          exact mem_absorb room (DecodedInstruction.mem_wanted_of_constant? isConstant)
      | error error pool =>
          rw [result] at answers
          rcases answers with ⟨full, sameLimit, held, exhausted⟩
          rw [bind_of_eq_error (Emission.onPool_of_eq_error result)]
          exact ⟨continues_withPool sameLimit held, .inl ⟨full, exhausted⟩⟩

theorem outcome_cons {step : EmissionStep} {others : List EmissionStep}
    (sound : step.fault? = none)
    (first : Outcome draft (absorb draft.classDraft.pool.limit values step.wanted) none
      step.instruction?.toList (step.typesAfter draft.classDraft.nodeTypes) (step.perform draft))
    (rest : ∀ later held, later.classDraft.pool.Represents held →
      Outcome later (absorb later.classDraft.pool.limit held (needs others))
        (firstFault? others) (plan others)
        (others.foldl typesAfter later.classDraft.nodeTypes) (performAll others later)) :
    Outcome draft (absorb draft.classDraft.pool.limit values (needs (step :: others)))
      (firstFault? (step :: others)) (plan (step :: others))
      ((step :: others).foldl typesAfter draft.classDraft.nodeTypes)
      (performAll (step :: others) draft) := by
  have needed : needs (step :: others) = step.wanted ++ needs others := by
    rw [needs, sound]
  have noFault : firstFault? (step :: others) = firstFault? others := by
    rw [firstFault?_cons, sound, Option.none_or]
  have planned : plan (step :: others) = step.instruction?.toList ++ plan others := by
    cases isInstruction : step.instruction? <;> simp [plan, isInstruction]
  rw [needed, noFault, planned, absorb_append, performAll, List.foldl_cons]
  cases result : step.perform draft with
  | error error later =>
      rw [result] at first
      rcases first with ⟨continues, ⟨full, exhausted⟩ | ⟨-, noError⟩⟩
      · rw [bind_of_eq_error result, full, if_neg Bool.false_ne_true]
        exact ⟨continues, .inl ⟨rfl, exhausted⟩⟩
      · simp at noError
  | ok _ later =>
      rw [result] at first
      rcases first with ⟨room, -, continues, code, known, types⟩
      have restOutcome := rest later _ continues.represents
      rw [bind_of_eq_ok result, room, if_pos rfl]
      rw [continues.limit, types] at restOutcome
      cases restResult : performAll others later with
      | error error last =>
          rw [restResult] at restOutcome
          rcases restOutcome with ⟨restContinues, cause⟩
          rw [continues.limit] at cause
          exact ⟨restContinues.trans continues, cause⟩
      | ok _ last =>
          rw [restResult] at restOutcome
          rcases restOutcome with ⟨restRoom, isSound, restContinues, restCode, restKnown, restTypes⟩
          have longer := prefix_absorb draft.classDraft.pool.limit
            (absorb draft.classDraft.pool.limit values step.wanted).1 (needs others)
          refine ⟨restRoom, isSound, restContinues.trans continues, ?_, ?_, restTypes⟩
          · -- what has been encoded already stays as it is, since its constants are known
            rw [restCode, code, List.map_append, List.append_assoc]
            congr 2
            apply List.map_congr_left
            intro instruction isAdded
            apply DecodedInstruction.encode_congr
            intro value isConstant
            exact (indexIn_of_longer longer (known instruction isAdded value isConstant)).symm
          · intro instruction isAdded value isConstant
            rcases List.mem_append.mp isAdded with early | late
            · exact longer.subset (known instruction early value isConstant)
            · exact restKnown instruction late value isConstant

/-- Steps ask for the constants that they need and do their part unless one of them fails. -/
theorem outcome_performAll (represents : draft.classDraft.pool.Represents values)
    (steps : List EmissionStep) :
    Outcome draft (absorb draft.classDraft.pool.limit values (needs steps))
      (firstFault? steps) (plan steps)
      (steps.foldl typesAfter draft.classDraft.nodeTypes) (performAll steps draft) := by
  induction steps generalizing draft values with
  | nil =>
      exact ⟨rfl, rfl, continues_refl represents, by simp [plan], by simp [plan], rfl⟩
  | cons step others ih =>
      cases faulty : step.fault? with
      | none =>
          exact outcome_cons faulty (outcome_perform represents faulty) fun _ _ held => ih held
      | some error =>
          rw [needs, faulty, firstFault?_cons, faulty, Option.some_or, performAll,
            bind_of_eq_error (perform_of_fault faulty draft)]
          exact ⟨continues_refl represents, .inr ⟨rfl, rfl⟩⟩

/-- Steps continue the draft and add the constants that have found room, whether they fail or not. -/
theorem continues_performAll (represents : draft.classDraft.pool.Represents values)
    (steps : List EmissionStep) :
    (leftBehind (performAll steps draft)).Continues draft
      (absorb draft.classDraft.pool.limit values (needs steps)).1 := by
  have outcome := outcome_performAll represents steps
  cases result : performAll steps draft with
  | ok _ later =>
      rw [result] at outcome
      exact outcome.2.2.1
  | error error later =>
      rw [result] at outcome
      exact outcome.1

end EmissionStep

end NodeNames
