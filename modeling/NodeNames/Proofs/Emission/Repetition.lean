import NodeNames.Proofs.Emission.Step
/-!
# Repeated emission

Steps that have been performed once have left behind all that they ask for:
their constants are in the pool and their keys are registered. Performing them
again finds everything there. So it succeeds even when the pool is full, and it
changes nothing but the code.
-/

namespace NodeNames

open ConstantValue

namespace NodeTypes

variable {types later : NodeTypes} {key : String}

theorem position?_register (types : NodeTypes) (key : String) :
    ∃ position, (types.register key).2.position? key = some position ∧
      (types.register key).1 = firstNamedType + position :=
  ⟨_, Interner.position?_intern types key, rfl⟩

/-- A key that is registered already keeps its type, and nothing is registered. -/
theorem register_of_position? {position : Nat} (known : types.position? key = some position) :
    types.register key = (firstNamedType + position, types) := by
  simp only [register, Interner.intern_of_position? known]

/-- The type of a key is the same ever after it has been registered. -/
theorem register_of_extends (extended : later.Extends (types.register key).2) :
    later.register key = ((types.register key).1, later) := by
  rcases position?_register types key with ⟨position, found, isType⟩
  rw [isType]
  exact register_of_position? (extended.positions key position found)

end NodeTypes

/-- The draft with further instructions at the end of the code. -/
def Draft.withCode (draft : Draft) (added : Code) : Draft :=
  { draft with method := { draft.method with code := draft.method.code ++ added } }

namespace EmissionStep

/-- All that steps ask for is there: constants among given values, keys among given types. -/
structure Provided (steps : List EmissionStep) (values : List ConstantValue)
    (types : NodeTypes) : Prop where
  sound : firstFault? steps = none
  constants : ∀ step ∈ steps, ∀ value ∈ step.wanted, value ∈ values
  keys : ∀ key, register key ∈ steps → ∃ position, types.position? key = some position

variable {steps : List EmissionStep} {values held : List ConstantValue} {types later : NodeTypes}

theorem Provided.of_longer (provided : Provided steps values types) (longer : values <+: held)
    (extended : later.Extends types) : Provided steps held later where
  sound := provided.sound
  constants step isStep value asked := longer.subset (provided.constants step isStep value asked)
  keys key isKey := by
    rcases provided.keys key isKey with ⟨position, found⟩
    exact ⟨position, extended.positions key position found⟩

theorem Provided.known (provided : Provided steps values types) :
    ∀ instruction ∈ plan steps, ∀ value ∈ instruction.constant?, value ∈ values := by
  intro instruction isPlanned value isConstant
  rcases List.mem_filterMap.mp isPlanned with ⟨step, isStep, isInstruction⟩
  cases step with
  | append appended =>
      cases isInstruction
      exact provided.constants _ isStep value
        (DecodedInstruction.mem_wanted_of_constant? isConstant)
  | fail _ | prepare _ | register _ => cases isInstruction

/-- What has been emitted is encoded in the same way when further constants have been added. -/
theorem Provided.map_encode_of_longer (provided : Provided steps values types)
    (longer : values <+: held) :
    (plan steps).map (DecodedInstruction.encode (indexIn held)) =
      (plan steps).map (DecodedInstruction.encode (indexIn values)) := by
  apply List.map_congr_left
  intro instruction isPlanned
  apply DecodedInstruction.encode_congr
  intro value isConstant
  exact indexIn_of_longer longer (provided.known instruction isPlanned value isConstant)

theorem extends_typesAfter (types : NodeTypes) (step : EmissionStep) :
    (step.typesAfter types).Extends types := by
  cases step with
  | register key => exact Interner.extends_intern types key
  | fail _ | prepare _ | append _ => exact Interner.Extends.refl types

theorem extends_foldl_typesAfter (types : NodeTypes) (steps : List EmissionStep) :
    (steps.foldl typesAfter types).Extends types := by
  induction steps generalizing types with
  | nil => exact Interner.Extends.refl types
  | cons step others ih => exact (ih (step.typesAfter types)).trans (extends_typesAfter types step)

theorem position?_foldl_typesAfter {key : String} (isKey : register key ∈ steps) :
    ∃ position, (steps.foldl typesAfter types).position? key = some position := by
  induction steps generalizing types with
  | nil => cases isKey
  | cons step others ih =>
      rcases List.mem_cons.mp isKey with rfl | isLater
      · rcases NodeTypes.position?_register types key with ⟨position, found, _⟩
        exact ⟨position, (extends_foldl_typesAfter _ others).positions key position found⟩
      · exact ih isLater

/-- When steps have found room for all constants, they have left behind all that they ask for. -/
theorem provided_of_room {limit : Nat} (sound : firstFault? steps = none)
    (room : (absorb limit values (needs steps)).2 = true) :
    Provided steps (absorb limit values (needs steps)).1 (steps.foldl typesAfter types) where
  sound := sound
  constants := by
    intro step isStep value asked
    apply mem_absorb room
    rw [needs_of_sound sound]
    exact List.mem_flatMap.mpr ⟨step, isStep, asked⟩
  keys _ isKey := position?_foldl_typesAfter isKey

variable {draft : Draft}

theorem perform_of_provided {step : EmissionStep} {others : List EmissionStep}
    (represents : draft.classDraft.pool.Represents values)
    (provided : Provided (step :: others) values draft.classDraft.nodeTypes) :
    step.perform draft = .ok () (draft.withCode
      (step.instruction?.toList.map (DecodedInstruction.encode (indexIn values)))) := by
  have sound := firstFault?_eq_none_iff.mp provided.sound step (List.mem_cons_self ..)
  have known := provided.constants step (List.mem_cons_self ..)
  cases step with
  | fail error => cases sound
  | register key =>
      rcases provided.keys key (List.mem_cons_self ..) with ⟨position, found⟩
      have registered : (register key).perform draft = .ok () { draft with
          classDraft := { draft.classDraft with
            nodeTypes := (draft.classDraft.nodeTypes.register key).2 } } := rfl
      rw [registered, NodeTypes.register_of_position? found]
      simp only [Draft.withCode, instruction?, Option.toList_none, List.map_nil, List.append_nil]
  | prepare reference =>
      have isKnown := known (method reference) (mem_constituents _)
      have added := @ConstantPool.add_of_mem _ _ represents (method reference) sound isKnown
      simp only [Draft.withCode, instruction?, Option.toList_none, List.map_nil, List.append_nil]
      exact bind_of_eq_ok (Emission.onPool_of_eq_ok added)
  | append instruction =>
      have assembled := DecodedInstruction.assemble_of_known represents sound fun value isConstant =>
        known value (DecodedInstruction.mem_wanted_of_constant? isConstant)
      exact bind_of_eq_ok (Emission.onPool_of_eq_ok assembled)

theorem Provided.tail {step : EmissionStep} (provided : Provided (step :: steps) values types) :
    Provided steps values types where
  sound := by
    have sound := firstFault?_eq_none_iff.mp provided.sound
    exact firstFault?_eq_none_iff.mpr fun other isOther => sound other (by simp [isOther])
  constants other isOther := provided.constants other (by simp [isOther])
  keys key isKey := provided.keys key (by simp [isKey])

/-- Steps whose constants and keys are there append their instructions and do nothing else. -/
theorem performAll_of_provided (represents : draft.classDraft.pool.Represents values)
    (provided : Provided steps values draft.classDraft.nodeTypes) :
    performAll steps draft = .ok () (draft.withCode
      ((plan steps).map (DecodedInstruction.encode (indexIn values)))) := by
  induction steps generalizing draft with
  | nil =>
      simp only [plan, List.filterMap_nil, List.map_nil, Draft.withCode, List.append_nil]
      rfl
  | cons step others ih =>
      have performed := perform_of_provided represents provided
      have planned : plan (step :: others) = step.instruction?.toList ++ plan others := by
        cases isInstruction : step.instruction? <;> simp [plan, isInstruction]
      have rest := @ih (draft.withCode (step.instruction?.toList.map
        (DecodedInstruction.encode (indexIn values)))) represents provided.tail
      rw [performAll, bind_of_eq_ok performed]
      refine rest.trans ?_
      simp only [Draft.withCode, planned, List.map_append, List.append_assoc]

end EmissionStep

end NodeNames
