import Mathlib.Data.List.Basic
import NodeNames.Emission.RuntimeOperation
/-!
# Descriptors

Reading a descriptor is the inverse of writing a signature: a text is read
exactly if it is the written form of a signature whose class names can stand
in a descriptor. The descriptors of operations are written forms, unless the
name of the iterator class breaks them.
-/

namespace NodeNames

namespace FieldType

/-- Class names in a descriptor are not empty and do not contain the semicolon that ends them. -/
def WellFormed : FieldType → Prop
  | object className => className.toList ≠ [] ∧ ';' ∉ className.toList
  | array element => element.WellFormed
  | _ => True

def renderResult : Option FieldType → List Char
  | some type => type.render
  | none => ['V']

theorem read_render {type : FieldType} (wellFormed : type.WellFormed) (rest : List Char) :
    read (type.render ++ rest) = some (type, rest) := by
  induction type with
  | object className =>
      rcases wellFormed with ⟨nonempty, noSemicolon⟩
      have cut : Text.cutAtFirst ';' (className.toList ++ ';' :: rest) =
          some (className.toList, rest) :=
        Text.cutAtFirst_eq_some_iff.mpr ⟨rfl, noSemicolon⟩
      simp only [render, List.cons_append, List.append_assoc, List.nil_append, read, cut]
      simp
  | array element ih =>
      simp [render, read, ih wellFormed]
  | _ => rfl

theorem eq_render_of_read {source rest : List Char} {type : FieldType}
    (found : read source = some (type, rest)) : source = type.render ++ rest ∧ type.WellFormed := by
  fun_induction read source generalizing type <;>
    simp only [Option.some.injEq, Prod.mk.injEq, Option.map_eq_some_iff, reduceCtorEq] at found
  case case11 source className final notEmpty cut =>
    rcases found with ⟨rfl, rfl⟩
    rcases Text.cutAtFirst_eq_some_iff.mp cut with ⟨rfl, noSemicolon⟩
    simp_all [render, WellFormed]
  case case12 ih =>
    rcases found with ⟨⟨element, rest⟩, readElement, rfl, rfl⟩
    rcases ih readElement with ⟨rfl, wellFormed⟩
    exact ⟨rfl, wellFormed⟩
  all_goals
    rcases found with ⟨rfl, rfl⟩
    exact ⟨rfl, trivial⟩

theorem read_eq_some_iff {source rest : List Char} {type : FieldType} :
    read source = some (type, rest) ↔ source = type.render ++ rest ∧ type.WellFormed := by
  constructor
  · exact eq_render_of_read
  · rintro ⟨rfl, wellFormed⟩
    exact read_render wellFormed rest

theorem readAll_of_read {source rest : List Char} {type : FieldType}
    (found : read source = some (type, rest)) :
    readAll source = (readAll rest).map (type :: ·) := by
  have nonempty : source ≠ [] := by
    intro empty
    simp [empty, read] at found
  rw [readAll, if_neg nonempty]
  split
  next none => simp [none] at found
  next otherType otherRest other =>
    rw [found] at other
    cases other
    rfl

theorem readAll_render {types : List FieldType} (wellFormed : ∀ type ∈ types, type.WellFormed) :
    readAll (types.flatMap render) = some types := by
  induction types with
  | nil => simp [readAll]
  | cons type others ih =>
      have readFirst := read_render (wellFormed type (by simp)) (others.flatMap render)
      rw [List.flatMap_cons, readAll_of_read readFirst,
        ih fun other member => wellFormed other (by simp [member])]
      rfl

theorem eq_render_of_readAll {source : List Char} {types : List FieldType}
    (found : readAll source = some types) :
    source = types.flatMap render ∧ ∀ type ∈ types, type.WellFormed := by
  fun_induction readAll source generalizing types with
  | case1 =>
      cases found
      simp
  | case2 => simp at found
  | case3 source nonempty type rest readFirst _ ih =>
      simp only [Option.map_eq_some_iff] at found
      rcases found with ⟨others, readRest, rfl⟩
      rcases ih readRest with ⟨rfl, wellFormed⟩
      rcases eq_render_of_read readFirst with ⟨rfl, firstWellFormed⟩
      refine ⟨rfl, ?_⟩
      simp only [List.mem_cons, forall_eq_or_imp]
      exact ⟨firstWellFormed, wellFormed⟩

theorem readAll_eq_some_iff {source : List Char} {types : List FieldType} :
    readAll source = some types ↔
      source = types.flatMap render ∧ ∀ type ∈ types, type.WellFormed := by
  constructor
  · exact eq_render_of_readAll
  · rintro ⟨rfl, wellFormed⟩
    exact readAll_render wellFormed

theorem readResult_eq_some_iff {source : List Char} {result : Option FieldType} :
    readResult source = some result ↔
      source = renderResult result ∧ ∀ type ∈ result, type.WellFormed := by
  rw [readResult]
  split_ifs with void
  · subst void
    cases result with
    | none => simp [renderResult]
    | some type => cases type <;> simp [renderResult, render]
  · cases result with
    | none =>
        split <;> simp [renderResult, void]
    | some type =>
        simp only [renderResult, Option.mem_def, Option.some.injEq, forall_eq']
        rw [← List.append_nil type.render, ← read_eq_some_iff]
        split
        next other found => simp [found]
        next unread =>
          simp only [reduceCtorEq, false_iff]
          exact unread type

end FieldType

namespace MethodSignature

/-- A signature whose class names can stand in a descriptor. -/
def WellFormed (signature : MethodSignature) : Prop :=
  (∀ type ∈ signature.parameters, type.WellFormed ∧ ')' ∉ type.render) ∧
    ∀ type ∈ signature.result, type.WellFormed

theorem render_eq (signature : MethodSignature) :
    signature.render = '(' :: (signature.parameters.flatMap FieldType.render ++
      ')' :: FieldType.renderResult signature.result) := by
  rcases signature with ⟨parameters, _ | type⟩ <;> rfl

theorem cut_render {signature : MethodSignature}
    (noParenthesis : ∀ type ∈ signature.parameters, ')' ∉ type.render) :
    Text.cutAtFirst ')' (signature.parameters.flatMap FieldType.render ++
        ')' :: FieldType.renderResult signature.result) =
      some (signature.parameters.flatMap FieldType.render,
        FieldType.renderResult signature.result) := by
  apply Text.cutAtFirst_eq_some_iff.mpr
  refine ⟨rfl, ?_⟩
  intro inside
  rcases List.mem_flatMap.mp inside with ⟨type, member, insideType⟩
  exact noParenthesis type member insideType

/-- Reading a descriptor gives exactly the signatures of which it is the written form. -/
theorem read_eq_some_iff {descriptor : List Char} {signature : MethodSignature} :
    read descriptor = some signature ↔
      descriptor = signature.render ∧ signature.WellFormed := by
  rw [render_eq]
  constructor
  · intro found
    unfold read at found
    split at found
    next body =>
      split at found
      next => simp at found
      next parameterText resultText cut =>
        rcases Text.cutAtFirst_eq_some_iff.mp cut with ⟨rfl, noParenthesis⟩
        split at found
        next parameters result readParameters readResult =>
          simp only [Option.some.injEq] at found
          subst found
          rcases FieldType.readAll_eq_some_iff.mp readParameters with ⟨rfl, parametersWellFormed⟩
          rcases FieldType.readResult_eq_some_iff.mp readResult with ⟨rfl, resultWellFormed⟩
          refine ⟨rfl, ?_, resultWellFormed⟩
          intro type member
          refine ⟨parametersWellFormed type member, ?_⟩
          intro inside
          exact noParenthesis (List.mem_flatMap.mpr ⟨type, member, inside⟩)
        next => simp at found
    next => simp at found
  · rintro ⟨rfl, parametersWellFormed, resultWellFormed⟩
    have cut := cut_render fun type member => (parametersWellFormed type member).2
    have readParameters := FieldType.readAll_eq_some_iff.mpr
      ⟨rfl, fun type member => (parametersWellFormed type member).1⟩
    have readResult := FieldType.readResult_eq_some_iff.mpr ⟨rfl, resultWellFormed⟩
    simp only [read, cut, readParameters, readResult]

theorem ofDescriptor_eq_ok_iff {descriptor : String} {signature : MethodSignature} :
    ofDescriptor descriptor = .ok signature ↔
      descriptor.toList = signature.render ∧ signature.WellFormed := by
  rw [← read_eq_some_iff, ofDescriptor]
  cases read descriptor.toList <;> simp

/-- A text that is no written form is reported as a malformed descriptor. -/
theorem ofDescriptor_eq_error {descriptor : String}
    (malformed : ∀ signature : MethodSignature,
      signature.WellFormed → descriptor.toList ≠ signature.render) :
    ofDescriptor descriptor = .error (.malformedDescriptor descriptor) := by
  rw [ofDescriptor]
  cases found : read descriptor.toList with
  | none => rfl
  | some signature =>
      rcases read_eq_some_iff.mp found with ⟨same, wellFormed⟩
      exact absurd same (malformed signature wellFormed)

end MethodSignature

/-- Whether the name of the iterator class can stand in a descriptor. -/
def Config.NamesIterator (config : Config) : Prop :=
  config.nodeIteratorInterface ≠ "" ∧ ';' ∉ config.nodeIteratorInterface.toList

namespace ValueType

/-- The field type of the values of a type; void has none. -/
def fieldType? (config : Config) : ValueType → Option FieldType
  | node | int => some .int
  | nodeSet => some (.object config.nodeIteratorInterface)
  | reference => some (.object "java/lang/Object")
  | string => some (.object "java/lang/String")
  | boolean => some .boolean
  | real => some .double
  | void => none

theorem toList_descriptor (config : Config) (type : ValueType) :
    (type.descriptor config).toList = FieldType.renderResult (type.fieldType? config) := by
  cases type <;>
    simp [descriptor, fieldType?, FieldType.renderResult, FieldType.render]

theorem toList_methodDescriptor (config : Config) {parameters : List ValueType}
    (result : ValueType) (values : .void ∉ parameters) :
    (methodDescriptor config parameters result).toList = MethodSignature.render
      { parameters := parameters.filterMap (fieldType? config)
        result := result.fieldType? config } := by
  have parameterText : (parameters.flatMap fun type => (type.descriptor config).toList) =
      (parameters.filterMap (fieldType? config)).flatMap FieldType.render := by
    induction parameters with
    | nil => rfl
    | cons type others ih =>
        simp only [List.mem_cons, not_or] at values
        rw [List.flatMap_cons, ih values.2, toList_descriptor]
        cases type <;> simp_all [fieldType?, FieldType.renderResult]
  rw [MethodSignature.render_eq]
  simp only [methodDescriptor, String.toList_append, String.toList_join, List.flatMap_map,
    toList_descriptor config result] at parameterText ⊢
  rw [parameterText]
  simp

theorem totalSlots_filterMap (config : Config) (parameters : List ValueType) :
    FieldType.totalSlots (parameters.filterMap (fieldType? config)) = totalSlots parameters := by
  induction parameters with
  | nil => rfl
  | cons type others ih =>
      cases type <;> simp [List.filterMap_cons, fieldType?, FieldType.totalSlots, totalSlots,
        slots, FieldType.slots, ih]

end ValueType

namespace RuntimeOperation

def signature (operation : RuntimeOperation) (config : Config) : MethodSignature :=
  { parameters := operation.parameters.filterMap (ValueType.fieldType? config)
    result := operation.result.fieldType? config }

/-- No parameter is an iterator or void, so that no parameter type can break the descriptor. -/
def Plain (operation : RuntimeOperation) : Prop :=
  ∀ type ∈ operation.parameters, type ≠ .void ∧ type ≠ .nodeSet

instance (operation : RuntimeOperation) : Decidable operation.Plain :=
  inferInstanceAs (Decidable (∀ type ∈ operation.parameters, type ≠ .void ∧ type ≠ .nodeSet))

theorem plain_of_mem_all : ∀ operation ∈ all, operation.Plain := by
  decide

/-- Whether the configuration gives the operation a descriptor that can be read. -/
def Readable (operation : RuntimeOperation) (config : Config) : Prop :=
  operation.result = .nodeSet → config.NamesIterator

theorem argumentSlots_signature (operation : RuntimeOperation) (config : Config) :
    (operation.signature config).argumentSlots = ValueType.totalSlots operation.parameters :=
  ValueType.totalSlots_filterMap config operation.parameters

theorem resultSlots_signature (operation : RuntimeOperation) (config : Config) :
    (operation.signature config).resultSlots = operation.result.slots := by
  cases result : operation.result <;>
    simp [signature, MethodSignature.resultSlots, result, ValueType.fieldType?, ValueType.slots,
      FieldType.slots]

variable {operation : RuntimeOperation} {config : Config}

theorem toList_descriptor (plain : operation.Plain) :
    (operation.descriptor config).toList = (operation.signature config).render :=
  ValueType.toList_methodDescriptor config operation.result
    fun void => (plain .void void).1 rfl

theorem parameter_wellFormed (plain : operation.Plain) {field : FieldType}
    (member : field ∈ (operation.signature config).parameters) :
    field.WellFormed ∧ ')' ∉ field.render := by
  rcases List.mem_filterMap.mp member with ⟨type, typeMember, isField⟩
  have allowed := plain type typeMember
  cases type <;> simp only [ValueType.fieldType?, Option.some.injEq, reduceCtorEq] at isField
  case nodeSet => exact absurd rfl allowed.2
  all_goals
    subst isField
    simp [FieldType.WellFormed, FieldType.render]

theorem result_wellFormed (readable : operation.Readable config) {field : FieldType}
    (isResult : (operation.signature config).result = some field) : field.WellFormed := by
  simp only [signature] at isResult
  cases result : operation.result <;>
    simp only [result, ValueType.fieldType?, Option.some.injEq, reduceCtorEq] at isResult
  case nodeSet =>
    subst isResult
    rcases readable result with ⟨nonempty, noSemicolon⟩
    exact ⟨fun empty => nonempty (String.toList_eq_nil_iff.mp empty), noSemicolon⟩
  all_goals
    subst isResult
    simp [FieldType.WellFormed]

theorem ofDescriptor_descriptor (plain : operation.Plain) (readable : operation.Readable config) :
    MethodSignature.ofDescriptor (operation.descriptor config) =
      .ok (operation.signature config) := by
  rw [MethodSignature.ofDescriptor_eq_ok_iff]
  exact ⟨toList_descriptor plain, fun _ member => parameter_wellFormed plain member,
    fun _ isResult => result_wellFormed readable isResult⟩

/-- An iterator class whose name cannot stand in a descriptor breaks the operation. -/
theorem ofDescriptor_descriptor_of_not_readable (plain : operation.Plain)
    (unreadable : ¬operation.Readable config) :
    MethodSignature.ofDescriptor (operation.descriptor config) =
      .error (.malformedDescriptor (operation.descriptor config)) := by
  apply MethodSignature.ofDescriptor_eq_error
  intro other wellFormed same
  simp only [Readable, not_forall] at unreadable
  rcases unreadable with ⟨result, unnamed⟩
  rw [toList_descriptor plain, MethodSignature.render_eq, MethodSignature.render_eq] at same
  -- both descriptors are cut at their first closing parenthesis
  have cut := MethodSignature.cut_render
    fun field (member : field ∈ (operation.signature config).parameters) =>
      (parameter_wellFormed plain member).2
  rw [(List.cons.inj same).2,
    MethodSignature.cut_render fun field member => (wellFormed.1 field member).2] at cut
  simp only [Option.some.injEq, Prod.mk.injEq, signature, result, ValueType.fieldType?,
    FieldType.renderResult, FieldType.render] at cut
  have resultText := cut.2
  cases isResult : other.result with
  | none => simp [isResult] at resultText
  | some field =>
      have fieldWellFormed := wellFormed.2 field isResult
      cases field <;>
        simp only [isResult, FieldType.render, List.cons_append, List.cons.injEq,
          Char.reduceEq, false_and, List.append_cancel_right_eq,
          String.toList_inj, true_and] at resultText
      case object className =>
        subst resultText
        apply unnamed
        exact ⟨fun empty => fieldWellFormed.1 (String.toList_eq_nil_iff.mpr empty),
          fieldWellFormed.2⟩

end RuntimeOperation

end NodeNames
