import NodeNames.Proofs.Unit.Correctness
/-!
# Type safety of compiled code

Verification counts slots and looks at no types. Compiled code is well typed all
the same: run on field types in place of values, it loads from every local slot
what the slot holds, gives every method the arguments of its descriptor and
every interface method a receiver of the interface, and ends with a string.
-/

namespace NodeNames

namespace FieldType

def isReference : FieldType → Bool
  | object _ | array _ => true
  | byte | char | double | float | int | long | short | boolean => false

end FieldType

/-- What the arguments of a method have to be, with the receiver of an interface method first. -/
def MethodReference.expected (reference : MethodReference) (signature : MethodSignature) :
    List FieldType :=
  match reference.kind with
  | .ofClass => signature.parameters
  | .ofInterface => .object reference.owner :: signature.parameters

/-- The machine whose values are field types; each load reads its own kind of types only. -/
def typeMachine (slotType? : UInt16 → Option FieldType) : Machine FieldType where
  loadReference slot := (slotType? slot).filter (·.isReference)
  loadInteger slot := (slotType? slot).filter (· = .int)
  loadReal slot := (slotType? slot).filter (· = .double)
  integer _ := .int
  text _ := .object "java/lang/String"
  classObject _ := .object "java/lang/Class"
  accepts reference signature arguments := arguments = reference.expected signature
  result _ type _ := type

/--
The types of local slots when a call is run: the document, the context node and every declared
variable are in their slots.
-/
structure SlotTypes (config : Config) (declared : List (QName × ValueType))
    (slotType? : UInt16 → Option FieldType) : Prop where
  document : slotType? config.domSlot = some (.object config.domInterface)
  contextNode : slotType? config.contextNodeSlot = some .int
  places : ∀ name place field,
    placeOf? config.firstFreeSlot.toNat declared name = some place →
      place.type.fieldType? config = some field → slotType? place.slot = some field

/-- The types of the slots that are set aside for variables. -/
def variableTypeAt? (config : Config) (first : Nat) :
    List (QName × ValueType) → UInt16 → Option FieldType
  | [], _ => none
  | (_, type) :: others, slot =>
      if slot = UInt16.ofNat first then type.fieldType? config
      else variableTypeAt? config (first + type.width) others slot

def slotTypeAt? (config : Config) (declared : List (QName × ValueType)) (slot : UInt16) :
    Option FieldType :=
  if slot = config.domSlot then some (.object config.domInterface)
  else if slot = config.contextNodeSlot then some .int
  else variableTypeAt? config config.firstFreeSlot.toNat declared slot

theorem variableTypeAt?_of_placeOf? {config : Config} {first : Nat}
    {declared : List (QName × ValueType)} {name : QName} {place : LocalVariable}
    (found : placeOf? first declared name = some place)
    (room : first + totalWidth declared ≤ 65535) :
    variableTypeAt? config first declared place.slot = place.type.fieldType? config := by
  induction declared generalizing first with
  | nil => cases found
  | cons entry others ih =>
      rcases entry with ⟨other, type⟩
      rw [totalWidth, ← Nat.add_assoc] at room
      rw [placeOf?] at found
      rw [variableTypeAt?]
      by_cases same : other.expandedName = name.expandedName
      · rw [if_pos same] at found
        cases found
        exact if_pos rfl
      · rw [if_neg same] at found
        have bounds := bounds_of_placeOf? found room
        have wide : 1 ≤ type.width := Nat.le_max_left 1 type.slots
        have later : place.slot ≠ UInt16.ofNat first := by
          intro atFirst
          rw [atFirst, UInt16.toNat_ofNat'] at bounds
          omega
        rw [if_neg later]
        exact ih found room

/-- Slots can have their types if the document, the context node and variables are kept apart. -/
theorem slotTypes_slotTypeAt? {config : Config} {declared : List (QName × ValueType)}
    (apart : config.domSlot ≠ config.contextNodeSlot)
    (documentBelow : config.domSlot < config.firstFreeSlot)
    (nodeBelow : config.contextNodeSlot < config.firstFreeSlot)
    (room : config.firstFreeSlot.toNat + totalWidth declared ≤ 65535) :
    SlotTypes config declared (slotTypeAt? config declared) where
  document := if_pos rfl
  contextNode := by
    rw [slotTypeAt?, if_neg apart.symm, if_pos rfl]
  places := by
    intro name place field found isField
    have above := (bounds_of_placeOf? found room).1
    have isVariable {slot : UInt16} (below : slot < config.firstFreeSlot) :
        place.slot ≠ slot := by
      rintro rfl
      exact absurd (UInt16.lt_iff_toNat_lt.mp below) (Nat.not_lt.mpr above)
    rw [slotTypeAt?, if_neg (isVariable documentBelow), if_neg (isVariable nodeBelow),
      variableTypeAt?_of_placeOf? found room]
    exact isField

/-- The values of a type are written as its field type. -/
def fieldReading (config : Config) : TypeReading FieldType where
  IsDocument field := field = .object config.domInterface
  Belongs type field := type.fieldType? config = some field

open RuntimeOperation

theorem filterMap_of_forall₂ {config : Config} {parameters : List ValueType}
    {arguments : List FieldType}
    (belong : List.Forall₂ (fieldReading config).Belongs parameters arguments) :
    parameters.filterMap (ValueType.fieldType? config) = arguments := by
  induction belong with
  | nil => rfl
  | cons first _ ih => rw [List.filterMap_cons_some first, ih]

theorem kind_of_mem_all : ∀ operation ∈ all, operation.kind =
    match operation.owner with
    | .basisLibrary => .ofClass
    | .dom | .nodeIterator => .ofInterface := by
  decide

theorem expected_of_receiver {config : Config} {operation : RuntimeOperation}
    (kind : operation.kind = .ofInterface) {receiver : FieldType} {arguments : List FieldType}
    (isReceiver : receiver = .object (operation.owner.className config))
    (belong : List.Forall₂ (fieldReading config).Belongs operation.parameters arguments) :
    receiver :: arguments =
      (operation.reference config).expected (operation.signature config) := by
  rw [isReceiver, ← filterMap_of_forall₂ belong]
  simp only [MethodReference.expected, reference, kind, signature]

theorem expected_of_takes {config : Config} {operation : RuntimeOperation}
    (isOperation : operation ∈ all) {arguments : List FieldType}
    (takes : (fieldReading config).Takes operation arguments) :
    arguments = (operation.reference config).expected (operation.signature config) := by
  have kind := kind_of_mem_all operation isOperation
  cases owner : operation.owner with
  | basisLibrary =>
      simp only [TypeReading.Takes, owner] at takes kind
      simp only [MethodReference.expected, reference, kind, signature]
      exact (filterMap_of_forall₂ takes).symm
  | dom =>
      cases arguments with
      | nil => simp [TypeReading.Takes, owner] at takes
      | cons receiver others =>
          simp only [TypeReading.Takes, owner] at takes kind
          apply expected_of_receiver kind _ takes.2
          rw [owner]
          exact takes.1
  | nodeIterator =>
      cases arguments with
      | nil => simp [TypeReading.Takes, owner] at takes
      | cons receiver others =>
          simp only [TypeReading.Takes, owner] at takes kind
          apply expected_of_receiver kind _ takes.2
          rw [owner]
          exact (Option.some.inj takes.1).symm

theorem reference_of_needsIterator {type : ValueType} (needsIterator : type.NeedsIterator)
    (config : Config) : ∃ field, type.fieldType? config = some field ∧ field.isReference := by
  rcases needsIterator with rfl | rfl
  · exact ⟨_, rfl, rfl⟩
  · exact ⟨_, rfl, rfl⟩

theorem typeMachine_respects {config : Config} {declared : List (QName × ValueType)}
    {slotType? : UInt16 → Option FieldType} (typed : SlotTypes config declared slotType?)
    {method : MethodDraft}
    (places : ∀ name, method.local? name = placeOf? config.firstFreeSlot.toNat declared name) :
    (typeMachine slotType?).Respects config method (fieldReading config) where
  document := ⟨_, by simp [typeMachine, typed.document, FieldType.isReference], rfl⟩
  contextNode := ⟨.int, by simp [typeMachine, typed.contextNode], rfl⟩
  integer _ := rfl
  nodeVariable := by
    intro name slot found
    rw [places] at found
    exact ⟨.int, by simp [typeMachine, typed.places name _ .int found rfl], rfl⟩
  otherVariable := by
    intro name slot type needsIterator found
    rcases reference_of_needsIterator needsIterator config with ⟨field, isField, isReference⟩
    rw [places] at found
    have held := typed.places name _ field found isField
    exact ⟨field, by simp [typeMachine, held, isReference], isField⟩
  apply := by
    intro operation isOperation arguments takes
    rcases result_signature config (ofInterface_of_mem_all operation isOperation).1 with
      ⟨field, isResult⟩
    refine ⟨field, ?_, isResult⟩
    have accepted := decide_eq_true (expected_of_takes isOperation takes)
    rw [Machine.apply, isResult]
    exact if_pos accepted

namespace CompileUnit

/--
The code of every method that a unit has compiled, from a source or from a call, is well typed in
the layout that keeps the document, the context node and the variables apart: there are slots of the
types that it expects, and run on any of them, whatever has been done to the unit since, it ends
with a string and nothing else.
-/
theorem run_typeMachine_of_answer (className : String) (config : Config)
    (history : List UnitOperation) (operation : UnitOperation)
    (apart : config.domSlot ≠ config.contextNodeSlot)
    (documentBelow : config.domSlot < config.firstFreeSlot)
    (nodeBelow : config.contextNodeSlot < config.firstFreeSlot)
    {method : CompiledMethod}
    (answered : operation.answer (after className config history) = .ok (some method)) :
    (∃ slotType?, SlotTypes config (declaredVariables config history) slotType?) ∧
      ∀ slotType?, SlotTypes config (declaredVariables config history) slotType? → ∀ further,
        method.code.run (typeMachine slotType?)
            (after className config (history ++ operation :: further)).classDraft.pool [] =
          some [.object "java/lang/String"] := by
  have describes := describes_after className config history
  rcases compileCall_of_answer describes answered with ⟨call, source, succeeds⟩
  rw [perform_after] at succeeds
  rcases run_of_compileCall describes succeeds with
    ⟨type, draft, _, room, isStarted, checked, registered, runs⟩
  refine ⟨⟨_, slotTypes_slotTypeAt? apart documentBelow nodeBelow room⟩, ?_⟩
  intro slotType? typed further
  rcases (typeMachine_respects typed isStarted.local?).callValue? checked registered with
    ⟨value, evaluated, isString⟩
  have extended := extends_after className config (history ++ [operation]) further
  rw [← after_cons] at extended
  rw [runs _ _ extended, evaluated, ← Option.some.inj isString]
  rfl

/-- The code of a call that no source stands for, which tests for the kind of attributes. -/
theorem run_typeMachine_of_answer_kindTest :
    let call := NameCall.onOperand .localName (.ofLocalPart "local-name")
      (.step ⟨.child, .kind .attributeNode⟩)
    ∃ method slotType?,
      UnitOperation.answer (after "A" {} [.compile "name()"]) (.compileCall call "attribute") =
        .ok (some method) ∧
      SlotTypes {} [] slotType? ∧
        method.code.run (typeMachine slotType?)
            (after "A" {} [.compile "name()", .compileCall call "attribute"]).classDraft.pool [] =
          some [.object "java/lang/String"] := by
  intro call
  rcases compileCall_of_few "A" {} [.compile "name()"] call "attribute" (by decide +kernel)
    (by decide) with ⟨method, unit, compiled⟩
  have answered : UnitOperation.answer (after "A" {} [.compile "name()"])
      (.compileCall call "attribute") = .ok (some method) := by
    rw [UnitOperation.answer, compiled]
    rfl
  rcases run_typeMachine_of_answer "A" {} [.compile "name()"] _ (by decide) (by decide)
    (by decide) answered with ⟨⟨slotType?, typed⟩, runs⟩
  exact ⟨method, slotType?, answered, typed, runs slotType? typed []⟩

end CompileUnit

end NodeNames
