import Mathlib.Data.List.Induction
import NodeNames.Proofs.Code.References
import NodeNames.Proofs.Descriptor
import NodeNames.Proofs.NameCall.Emission
/-!
# The calling convention of operations

How many slots an invocation takes is told twice: the operation counts the
slots of its parameters, and verification counts those of the descriptor that
the operation has been given. The two agree, except that an invocation has
only one byte for the count of an interface operation. One that needs more
than 255 slots is invoked with a count that verification refuses.
-/

namespace NodeNames

open ConstantValue

/-- Whether the name of the iterator class can stand among the parameters of a descriptor. -/
def Config.NamesIteratorParameter (config : Config) : Prop :=
  config.NamesIterator ∧ ')' ∉ config.nodeIteratorInterface.toList

namespace RuntimeOperation

/-- The slots of the arguments, and of the receiver if the operation has one. -/
def neededSlots (operation : RuntimeOperation) : Nat :=
  match operation.kind with
  | .ofClass => ValueType.totalSlots operation.parameters
  | .ofInterface => 1 + ValueType.totalSlots operation.parameters

/-- The slots that an invocation of the operation takes from the stack. -/
def declaredSlots (operation : RuntimeOperation) : Nat :=
  match operation.kind with
  | .ofClass => ValueType.totalSlots operation.parameters
  | .ofInterface => operation.interfaceCount.toNat

/-- Only an interface operation has its slots narrowed to one byte. -/
theorem declaredSlots_eq_neededSlots_iff (operation : RuntimeOperation) :
    operation.declaredSlots = operation.neededSlots ↔
      operation.kind = .ofClass ∨ operation.neededSlots ≤ 255 := by
  rw [declaredSlots, neededSlots]
  cases operation.kind with
  | ofClass => simp
  | ofInterface =>
      simp only [interfaceCount, UInt8.toNat_ofNat', reduceCtorEq, false_or]
      omega

end RuntimeOperation

theorem ValueType.toList_methodDescriptor_eq (config : Config) (parameters : List ValueType)
    (result : ValueType) :
    (methodDescriptor config parameters result).toList =
      '(' :: ((parameters.flatMap fun type => (type.descriptor config).toList) ++
        ')' :: (result.descriptor config).toList) := by
  simp [methodDescriptor, String.toList_join, List.flatMap_map]

section Descriptors

variable {config : Config} (named : config.NamesIteratorParameter)

include named

theorem ValueType.className_of_fieldType? {type : ValueType} {field : FieldType}
    {className : String} (isField : type.fieldType? config = some field)
    (isClass : field.className? = some className) :
    className ≠ "" ∧ ';' ∉ className.toList ∧ ')' ∉ className.toList := by
  cases type with
  | nodeSet =>
      cases isField
      cases isClass
      exact ⟨named.1.1, named.1.2, named.2⟩
  | reference | string =>
      cases isField
      cases isClass
      simp
  | node | int | boolean | real =>
      cases isField
      cases isClass
  | void => cases isField

theorem ValueType.wellFormed_of_fieldType? {type : ValueType} {field : FieldType}
    (isField : type.fieldType? config = some field) : field.WellFormed := by
  rw [FieldType.wellFormed_iff]
  intro className isClass
  have sound := className_of_fieldType? named isField isClass
  exact ⟨sound.1, sound.2.1⟩

theorem RuntimeOperation.describable_signature (operation : RuntimeOperation) :
    (operation.signature config).Describable := by
  constructor
  · intro field isParameter className isClass
    rcases List.mem_filterMap.mp isParameter with ⟨type, _, isField⟩
    exact ValueType.className_of_fieldType? named isField isClass
  · intro field isResult
    exact FieldType.wellFormed_iff.mp (ValueType.wellFormed_of_fieldType? named isResult)

/-- The texts of parameters cannot be read if one of them is void, since no parameter is. -/
theorem FieldType.readAll_descriptors_of_void {parameters : List ValueType}
    (isVoid : .void ∈ parameters) :
    readAll (parameters.flatMap fun type => (type.descriptor config).toList) = none := by
  induction parameters with
  | nil => cases isVoid
  | cons type others ih =>
      rw [List.flatMap_cons, ValueType.toList_descriptor]
      cases isField : type.fieldType? config with
      | none =>
          rw [renderResult, List.singleton_append, readAll, if_neg (List.cons_ne_nil _ _)]
          rfl
      | some field =>
          have wellFormed := ValueType.wellFormed_of_fieldType? named isField
          have later : .void ∈ others := by
            refine (List.mem_cons.mp isVoid).resolve_left ?_
            rintro rfl
            cases isField
          rw [renderResult, readAll_of_read (read_render wellFormed _), ih later, Option.map_none]

/-- The parameters of a descriptor end where they should. -/
theorem ValueType.parenthesis_notMem_descriptors (parameters : List ValueType) :
    ')' ∉ parameters.flatMap fun type => (type.descriptor config).toList := by
  intro isInside
  rcases List.mem_flatMap.mp isInside with ⟨type, _, isInType⟩
  rw [toList_descriptor] at isInType
  cases isField : type.fieldType? config with
  | none => simp [isField, FieldType.renderResult] at isInType
  | some field =>
      rw [isField, FieldType.renderResult, FieldType.parenthesis_mem_render_iff] at isInType
      rcases isInType with ⟨className, isClass, isInName⟩
      exact (className_of_fieldType? named isField isClass).2.2 isInName

/-- The descriptor of an operation gives back its signature, unless a parameter is void. -/
theorem RuntimeOperation.ofDescriptor_reference_eq_ok_iff {operation : RuntimeOperation}
    {signature : MethodSignature} :
    MethodSignature.ofDescriptor (operation.reference config).descriptor = .ok signature ↔
      .void ∉ operation.parameters ∧ signature = operation.signature config := by
  by_cases isVoid : .void ∈ operation.parameters
  · simp only [isVoid, not_true_eq_false, false_and, iff_false]
    intro found
    -- the text of the parameters is all read, in which the letter of void stands for no field type
    have parameterText := (MethodSignature.texts_of_ofDescriptor
      (ValueType.toList_methodDescriptor_eq config operation.parameters operation.result)
      (ValueType.parenthesis_notMem_descriptors named operation.parameters) found).1
    have unread := FieldType.readAll_descriptors_of_void named isVoid
    have wellFormed := (MethodSignature.ofDescriptor_eq_ok_iff.mp found).2
    rw [parameterText,
      FieldType.readAll_render fun field isParameter => (wellFormed.1 field isParameter).1] at unread
    cases unread
  · have read : MethodSignature.ofDescriptor (operation.reference config).descriptor =
        .ok (operation.signature config) :=
      MethodSignature.ofDescriptor_eq_ok_iff_describable.mpr
        ⟨ValueType.toList_methodDescriptor config operation.result isVoid,
          operation.describable_signature named⟩
    rw [read]
    simp [isVoid, eq_comm]

end Descriptors

/-- Integers that are pushed are on the stack, one slot each. -/
theorem Code.verify_iconst (integers : List Int8) (pool : ConstantPool) :
    Code.verify (integers.map .iconst) pool = .ok ⟨integers.length, integers.length⟩ := by
  induction integers using List.reverseRecOn with
  | nil => rfl
  | append_singleton integers last ih =>
      rw [List.map_append, List.map_singleton, verify_concat, ih, List.length_append]
      change Except.ok _ = _
      simp

namespace RuntimeOperation

variable {operation : RuntimeOperation} {draft later : Draft} {values : List ConstantValue}
  {index : PoolIndex}

theorem added_of_intern (interned : operation.intern draft = .ok index later) :
    (method (operation.reference draft.classDraft.config)).add draft.classDraft.pool =
      .ok index later.classDraft.pool := by
  rw [intern_eq] at interned
  cases added : ConstantPool.addMethodReference (operation.reference draft.classDraft.config)
      draft.classDraft.pool with
  | error error pool =>
      rw [Emission.onPool_of_eq_error added] at interned
      cases interned
  | ok found pool =>
      rw [Emission.onPool_of_eq_ok added] at interned
      cases interned
      exact added

/-- An operation without void parameters is interned if there is room for six more constants. -/
theorem exists_intern_eq_ok (represents : draft.classDraft.pool.Represents values)
    (named : draft.classDraft.config.NamesIteratorParameter)
    (isTyped : .void ∉ operation.parameters)
    (room : values.length + 6 ≤ draft.classDraft.pool.limit) :
    ∃ index later, operation.intern draft = .ok index later := by
  have readable := (ofDescriptor_reference_eq_ok_iff named).mpr ⟨isTyped, rfl⟩
  have answers := ConstantPool.answers_addMethodReference represents readable
  cases added : ConstantPool.addMethodReference (operation.reference draft.classDraft.config)
      draft.classDraft.pool with
  | error error pool =>
      rw [added] at answers
      have full := limit_lt_of_absorb answers.1
      exact absurd room (Nat.not_le.mpr full)
  | ok index pool =>
      rw [intern_eq, Emission.onPool_of_eq_ok added]
      exact ⟨index, _, rfl⟩

/-- An index that has been interned for an operation is that of a method with its signature. -/
theorem found_of_intern (represents : draft.classDraft.pool.Represents values)
    (named : draft.classDraft.config.NamesIteratorParameter)
    (interned : operation.intern draft = .ok index later) :
    later.classDraft.pool.methodReference? index =
        some (operation.reference draft.classDraft.config) ∧
      MethodSignature.ofDescriptor (operation.reference draft.classDraft.config).descriptor =
        .ok (operation.signature draft.classDraft.config) := by
  have added := added_of_intern interned
  rcases ConstantPool.represents_of_add_eq_ok represents added with
    ⟨held, _, laterRepresents, known, rfl⟩
  refine ⟨laterRepresents.methodReference?_indexIn known, ?_⟩
  cases read : MethodSignature.ofDescriptor
      (operation.reference draft.classDraft.config).descriptor with
  | ok signature => rw [((ofDescriptor_reference_eq_ok_iff named).mp read).2]
  | error error =>
      rw [add, ConstantPool.addMethodReference_of_malformed read] at added
      cases added

section Invocation

variable {pool : ConstantPool} {config : Config}
  (found : pool.methodReference? index = some (operation.reference config))
  (readable : MethodSignature.ofDescriptor (operation.reference config).descriptor =
    .ok (operation.signature config))

include found readable

theorem stackEffect_invoke :
    (operation.invoke index).stackEffect pool =
      .ok ⟨operation.declaredSlots, operation.result.slots⟩ := by
  have described : pool.signature index operation.kind = .ok (operation.signature config) := by
    rw [ConstantPool.signature_of_some found]
    exact (if_pos rfl).trans readable
  rw [invoke, declaredSlots, ← resultSlots_signature operation config,
    ← argumentSlots_signature operation config]
  cases isKind : operation.kind with
  | ofClass | ofInterface =>
      rw [isKind] at described
      simp only [Instruction.stackEffect, described, ok_bind]
      rfl

/-- The count of an invocation is tested against the slots that the operation needs. -/
theorem checkCount_invoke (position : Nat) :
    Code.checkCount pool position (operation.invoke index) =
      if operation.declaredSlots = operation.neededSlots then .ok ()
      else .error (.countMismatch position (operation.reference config) operation.declaredSlots
        operation.neededSlots) := by
  rw [invoke, declaredSlots, neededSlots, ← argumentSlots_signature operation config]
  cases operation.kind with
  | ofClass => simp [Code.checkCount, pure, Except.pure]
  | ofInterface =>
      rw [Code.checkCount, ConstantPool.methodReference_of_some found, ok_bind, readable, ok_bind]
      rfl

/-- Integers that are as many as an operation needs, and then its invocation. -/
theorem verify_iconst_invoke {integers : List Int8}
    (enough : operation.neededSlots ≤ integers.length) :
    Code.verify (integers.map .iconst ++ [operation.invoke index]) pool =
      if operation.declaredSlots = operation.neededSlots then
        .ok {
          maxStack := max integers.length
            (integers.length - operation.neededSlots + operation.result.slots)
          finalDepth := integers.length - operation.neededSlots + operation.result.slots }
      else .error (.countMismatch integers.length (operation.reference config)
        operation.declaredSlots operation.neededSlots) := by
  rw [Code.verify_concat, Code.verify_iconst, List.length_map]
  change Code.verifyInstruction pool integers.length (operation.invoke index) _ = _
  rw [Code.verifyInstruction, checkCount_invoke found readable]
  split_ifs with agrees
  · rw [ok_bind, stackEffect_invoke found readable, ok_bind, agrees]
    exact if_pos enough
  · rfl

end Invocation

/--
An operation that has been interned can be invoked: the invocation takes the slots that it declares
and puts back those of the result. It declares the slots that the operation needs, except for an
interface operation that needs more than 255. After enough integers have been pushed the invocation
is verified if it declares what it needs, and refused for its count if not.
-/
theorem invoke_of_intern {limit : Nat} {requests : List ConstantValue}
    (reached : draft.classDraft.pool = addAll (ConstantPool.withLimit limit) requests)
    (named : draft.classDraft.config.NamesIteratorParameter)
    (interned : operation.intern draft = .ok index later) :
    (operation.invoke index).stackEffect later.classDraft.pool =
        .ok { consumed := operation.declaredSlots, produced := operation.result.slots } ∧
      (operation.declaredSlots = operation.neededSlots ↔
        operation.kind = .ofClass ∨ operation.neededSlots ≤ 255) ∧
      ∀ integers : List Int8, operation.neededSlots ≤ integers.length →
        Code.verify (integers.map .iconst ++ [operation.invoke index]) later.classDraft.pool =
          if operation.declaredSlots = operation.neededSlots then
            .ok {
              maxStack := max integers.length
                (integers.length - operation.neededSlots + operation.result.slots)
              finalDepth := integers.length - operation.neededSlots + operation.result.slots }
          else .error (.countMismatch integers.length
            (operation.reference draft.classDraft.config) operation.declaredSlots
            operation.neededSlots) := by
  rcases ConstantPool.represents_addAll (ConstantPool.represents_withLimit limit) requests with
    ⟨_, values, _, represents⟩
  rw [← reached] at represents
  rcases found_of_intern represents named interned with ⟨found, readable⟩
  exact ⟨stackEffect_invoke found readable, declaredSlots_eq_neededSlots_iff operation,
    fun _ enough => verify_iconst_invoke found readable enough⟩

/-- An interface operation on a receiver and a number of integers. -/
def onIntegers (count : Nat) : RuntimeOperation :=
  { owner := .dom, name := "join", parameters := List.replicate count .int, result := .string
    kind := .ofInterface }

theorem neededSlots_onIntegers (count : Nat) : (onIntegers count).neededSlots = 1 + count := by
  refine congrArg (1 + ·) ?_
  rw [onIntegers]
  induction count with
  | zero => rfl
  | succ count ih =>
      rw [List.replicate_succ, ValueType.totalSlots, ih, ValueType.slots, Nat.add_comm]

theorem declaredSlots_onIntegers (count : Nat) :
    (onIntegers count).declaredSlots = (1 + count) % 256 := by
  rw [← neededSlots_onIntegers]
  exact UInt8.toNat_ofNat'

theorem namesIteratorParameter_default : ({} : Config).NamesIteratorParameter := by
  unfold Config.NamesIteratorParameter Config.NamesIterator
  decide

theorem exists_intern_onIntegers (count : Nat) :
    ∃ index later, (onIntegers count).intern ⟨ClassDraft.new "T" {}, MethodDraft.new "m" {}⟩ =
      .ok index later := by
  have isTyped : .void ∉ (onIntegers count).parameters := by
    intro isVoid
    cases List.eq_of_mem_replicate isVoid
  exact exists_intern_eq_ok (ConstantPool.represents_withLimit poolCapacity)
    namesIteratorParameter_default isTyped (by decide)

/-- 254 integers are as many as an operation with a receiver can be invoked on. -/
theorem invoke_of_intern_onIntegers :
    ∃ index later,
      (onIntegers 254).intern ⟨ClassDraft.new "T" {}, MethodDraft.new "m" {}⟩ = .ok index later ∧
        Code.verify ((List.replicate 255 0).map .iconst ++ [(onIntegers 254).invoke index])
          later.classDraft.pool = .ok ⟨255, 1⟩ := by
  rcases exists_intern_onIntegers 254 with ⟨index, later, interned⟩
  have reached : (ClassDraft.new "T" {}).pool =
      addAll (ConstantPool.withLimit poolCapacity) [] := rfl
  have agrees : (onIntegers 254).declaredSlots = (onIntegers 254).neededSlots := by
    rw [declaredSlots_onIntegers, neededSlots_onIntegers]
  refine ⟨index, later, interned, ?_⟩
  rw [(invoke_of_intern reached namesIteratorParameter_default interned).2.2
    (List.replicate 255 0) (Nat.le_of_eq (by rw [neededSlots_onIntegers, List.length_replicate])),
    if_pos agrees, neededSlots_onIntegers, List.length_replicate]
  rfl

/-- With one integer more the invocation declares no slots at all, and verification refuses it. -/
theorem invoke_onIntegers_refused :
    ∃ index later,
      (onIntegers 255).intern ⟨ClassDraft.new "T" {}, MethodDraft.new "m" {}⟩ = .ok index later ∧
        ({} : Config).NamesIteratorParameter ∧
        ((onIntegers 255).invoke index).stackEffect later.classDraft.pool = .ok ⟨0, 1⟩ ∧
        Code.verify ((List.replicate 256 0).map .iconst ++ [(onIntegers 255).invoke index])
            later.classDraft.pool =
          .error (.countMismatch 256 ((onIntegers 255).reference {}) 0 256) := by
  rcases exists_intern_onIntegers 255 with ⟨index, later, interned⟩
  rcases found_of_intern (ConstantPool.represents_withLimit poolCapacity)
    namesIteratorParameter_default interned with ⟨found, readable⟩
  have declared : (onIntegers 255).declaredSlots = 0 := declaredSlots_onIntegers 255
  have needed : (onIntegers 255).neededSlots = 256 := neededSlots_onIntegers 255
  have differs : (onIntegers 255).declaredSlots ≠ (onIntegers 255).neededSlots := by
    rw [declared, needed]
    decide
  refine ⟨index, later, interned, namesIteratorParameter_default, ?_, ?_⟩
  · rw [stackEffect_invoke found readable, declared]
    rfl
  · rw [verify_iconst_invoke found readable
      (Nat.le_of_eq (by rw [needed, List.length_replicate])), if_neg differs, declared, needed,
      List.length_replicate]
    rfl

end RuntimeOperation

end NodeNames
