import NodeNames.Proofs.Call.Parser
import NodeNames.Proofs.NodeTypes
import NodeNames.Proofs.Unit.Growth
/-!
# Name tests in a unit

Two name tests push the same type exactly when their names have the same key,
whatever the unit has compiled between them. Read as a law of names and axes,
this keeps names apart by local part and namespace and attributes apart from
other nodes, with two reservations: elements and namespaces are not kept apart,
and an attribute can have the key of a node whose namespace starts with an at
sign.
-/

namespace NodeNames

open EmissionStep RuntimeOperation

section Writing

variable {config : Config} {axis : Axis} {name : QName}

theorem Step.isLexical_of_spelledBy {tokens : List String}
    (spelled : Step.SpelledBy ⟨axis, .name name⟩ tokens) : name.IsLexical := by
  cases spelled with
  | attributeSign tests | axis _ tests | child tests =>
      cases tests with
      | name lexical => exact lexical

/-- The local part of a tested name is a part of a name, as it has been written. -/
theorem isNamePart_of_resolvedCall {source : String} {call : NameCall}
    (resolves : resolvedCall config source = .ok call)
    (isTest : call.operand = some (.step ⟨axis, .name name⟩)) : IsNamePart name.localPart := by
  rcases bind_eq_ok_iff.mp resolves with ⟨written, read, resolves⟩
  rcases FunctionCall.of_resolve resolves isTest with
    ⟨argument, others, isArguments, argumentResolves⟩
  rcases Expression.of_resolve_nameTest argumentResolves with ⟨tested, rfl, nameResolves⟩
  rcases FunctionCall.isWritten_of_read? (FunctionCall.ofText_eq_ok_iff.mp read) with
    ⟨_, _, ⟨_, spelled⟩, _⟩
  simp only at isArguments
  subst isArguments
  rw [localPart_of_resolve nameResolves]
  cases spelled with
  | cons argumentSpelled _ =>
      cases argumentSpelled with
      | step selected => exact (Step.isLexical_of_spelledBy selected).localPart

end Writing

namespace CompileUnit

variable {unit later : CompileUnit} {config : Config} {declared : List (QName × ValueType)}

/-- The node type that the code of a call with a name test pushes, after the axis. -/
def pushedType? (unit : CompileUnit) (method : CompiledMethod) : Option Int :=
  match (method.code.decode? unit.classDraft.pool).bind (·[3]?) with
  | some (DecodedInstruction.pushInteger type) => some type
  | _ => none

/-- The type that is pushed for a name test is the place of the key among all keys of the unit. -/
theorem pushedType?_of_compile (describes : unit.Describes config declared) {source : String}
    {call : NameCall} {axis : Axis} {name : QName}
    (resolves : resolvedCall config source = .ok call)
    (isTest : call.operand = some (.step ⟨axis, .name name⟩)) {method : CompiledMethod}
    (compiled : compile source unit = .ok method later) :
    ∃ position, later.classDraft.nodeTypes.position? (NodeTypes.keyOf axis name) = some position ∧
      later.pushedType? method = some ((firstNamedType + position : Nat) : Int) := by
  rcases compileCall_of_compile describes compiled with ⟨other, otherResolves, callCompiled⟩
  rw [resolves, Except.ok.injEq] at otherResolves
  subst otherResolves
  rcases compiled_of_compileCall describes callCompiled with
    ⟨type, slots, _, _, _, _, _, isCompiled⟩
  rcases NodeTypes.position?_register unit.classDraft.nodeTypes (NodeTypes.keyOf axis name) with
    ⟨position, found, isType⟩
  have types := types_of_compile describes resolves compiled
  simp only [isTest, Option.elim_some] at types
  refine ⟨position, ?_, ?_⟩
  · rw [types]
    exact found
  · rw [pushedType?, isCompiled.decode?, ← isType]
    simp only [NameCall.script, Emission.operandScript, isTest, Expression.script, plan_append,
      plan_preparations, plan_append_cons, plan_registrations, List.nil_append]
    rfl

section TwoTests

variable {className : String} {history between : List UnitOperation}
  {firstSource secondSource : String} {firstCall secondCall : NameCall}
  {firstAxis secondAxis : Axis} {first second : QName} {firstMethod secondMethod : CompiledMethod}
  {firstUnit secondUnit : CompileUnit}

variable (firstResolves : resolvedCall config firstSource = .ok firstCall)
  (firstTests : firstCall.operand = some (.step ⟨firstAxis, .name first⟩))
  (firstCompiled : compile firstSource (after className config history) = .ok firstMethod firstUnit)
  (secondResolves : resolvedCall config secondSource = .ok secondCall)
  (secondTests : secondCall.operand = some (.step ⟨secondAxis, .name second⟩))
  (secondCompiled :
    compile secondSource (after className config (history ++ .compile firstSource :: between)) =
      .ok secondMethod secondUnit)

include firstResolves firstTests firstCompiled secondResolves secondTests secondCompiled

/-- Name tests push the same type when they have the same key, and only then. -/
theorem pushedTypes_eq_iff_keys :
    ∃ firstType secondType, firstUnit.pushedType? firstMethod = some firstType ∧
      secondUnit.pushedType? secondMethod = some secondType ∧
      (firstType = secondType ↔
        NodeTypes.keyOf firstAxis first = NodeTypes.keyOf secondAxis second) := by
  rcases pushedType?_of_compile (describes_after className config history) firstResolves firstTests
    firstCompiled with ⟨firstPosition, isFirst, pushesFirst⟩
  rcases pushedType?_of_compile (describes_after className config _) secondResolves secondTests
    secondCompiled with ⟨secondPosition, isSecond, pushesSecond⟩
  have sameHistory : history ++ [.compile firstSource] ++ (between ++ [.compile secondSource]) =
      history ++ .compile firstSource :: between ++ [.compile secondSource] := by simp
  have extended := extends_after className config (history ++ [.compile firstSource])
    (between ++ [.compile secondSource])
  rw [sameHistory, after_compile firstCompiled, after_compile secondCompiled] at extended
  have consistent := (describes_after className config
    (history ++ .compile firstSource :: between ++ [.compile secondSource])).types
  rw [after_compile secondCompiled] at consistent
  have sameKey := consistent.position_inj (extended.types.positions _ _ isFirst) isSecond
  refine ⟨_, _, pushesFirst, pushesSecond, ?_⟩
  rw [← sameKey]
  omega

end TwoTests

/--
Name tests in calls of one unit push the same type when their names have the same local part and
the same namespace and both are for attributes or both are not, and also when an attribute collides
with another node. So types tell names and principal kinds apart as long as no test is for
namespaces and no namespace starts with an at sign. The types are those of words of thirty-two bits
under the bound of `toInt_type_after`.
-/
theorem nameTests_sameType_iff (className : String) (config : Config)
    (history between : List UnitOperation) {firstSource secondSource : String}
    {firstCall secondCall : NameCall} {firstAxis secondAxis : Axis} {first second : QName}
    {firstMethod secondMethod : CompiledMethod} {firstUnit secondUnit : CompileUnit}
    (firstResolves : resolvedCall config firstSource = .ok firstCall)
    (firstTests : firstCall.operand = some (.step ⟨firstAxis, .name first⟩))
    (firstCompiled :
      compile firstSource (after className config history) = .ok firstMethod firstUnit)
    (secondResolves : resolvedCall config secondSource = .ok secondCall)
    (secondTests : secondCall.operand = some (.step ⟨secondAxis, .name second⟩))
    (secondCompiled :
      compile secondSource (after className config (history ++ .compile firstSource :: between)) =
        .ok secondMethod secondUnit) :
    ∃ firstType secondType, firstUnit.pushedType? firstMethod = some firstType ∧
      secondUnit.pushedType? secondMethod = some secondType ∧
      (firstType = secondType ↔
        first.localPart = second.localPart ∧
          ((firstAxis.principalKind = .attributeNode ↔
              secondAxis.principalKind = .attributeNode) ∧
            first.namespaceUri = second.namespaceUri ∨
            first.CollidesAsAttribute firstAxis second secondAxis ∨
            second.CollidesAsAttribute secondAxis first firstAxis)) ∧
      (firstAxis.principalKind ≠ .namespaceNode → secondAxis.principalKind ≠ .namespaceNode →
        (∀ uri, first.namespaceUri ≠ "@" ++ uri) → (∀ uri, second.namespaceUri ≠ "@" ++ uri) →
        (firstType = secondType ↔ firstAxis.principalKind = secondAxis.principalKind ∧
          first.namespaceUri = second.namespaceUri ∧ first.localPart = second.localPart)) := by
  rcases pushedTypes_eq_iff_keys firstResolves firstTests firstCompiled secondResolves secondTests
    secondCompiled with ⟨firstType, secondType, pushesFirst, pushesSecond, sameType⟩
  have keys := NodeTypes.keyOf_eq_iff (isNamePart_of_resolvedCall firstResolves firstTests)
    (isNamePart_of_resolvedCall secondResolves secondTests) firstAxis secondAxis
  rw [keys] at sameType
  refine ⟨firstType, secondType, pushesFirst, pushesSecond, sameType, ?_⟩
  intro firstKind secondKind firstPlain secondPlain
  rw [sameType, Axis.principalKind_eq_iff firstKind secondKind]
  constructor
  · rintro ⟨sameLocalPart, ⟨sameKind, sameUri⟩ | collision | collision⟩
    · exact ⟨sameKind, sameUri, sameLocalPart⟩
    · exact absurd collision.marked (secondPlain _)
    · exact absurd collision.marked (firstPlain _)
  · rintro ⟨sameKind, sameUri, sameLocalPart⟩
    exact ⟨sameLocalPart, .inl ⟨sameKind, sameUri⟩⟩

section Acceptance

variable {source : String} {call : NameCall} {step : Step}

/-- A call with a step is compiled where iterators have a name and the pool has room. -/
theorem compile_of_step (className : String) {history : List UnitOperation}
    (undeclaring : declaredVariables config history = []) (names : config.NamesIterator)
    (few : 31 * (history.length + 1) ≤ min config.maxPoolEntries poolCapacity)
    (resolves : resolvedCall config source = .ok call)
    (isStep : call.operand = some (.step step)) :
    ∃ method later, compile source (after className config history) = .ok method later := by
  refine compile_of_few className config history source ?_ few
  rw [refusal?_of_resolvedCall resolves, undeclaring]
  exact refusal?_of_step names isStep

end Acceptance

/-- An element and an attribute of one name have different types. -/
theorem nameTests_sameType_iff_attribute :
    ∃ firstMethod secondMethod firstUnit secondUnit firstType secondType,
      compile "name(child::i)" (after "T" {} []) = .ok firstMethod firstUnit ∧
      compile "name(attribute::i)" (after "T" {} [.compile "name(child::i)"]) =
        .ok secondMethod secondUnit ∧
      firstUnit.pushedType? firstMethod = some firstType ∧
      secondUnit.pushedType? secondMethod = some secondType ∧ firstType ≠ secondType := by
  have firstResolves : resolvedCall {} "name(child::i)" = .ok (.onOperand .name (.ofLocalPart "name")
      (.step ⟨.child, .name (.ofLocalPart "i")⟩)) := by decide +kernel
  have secondResolves : resolvedCall {} "name(attribute::i)" = .ok (.onOperand .name
      (.ofLocalPart "name") (.step ⟨.attributeAxis, .name (.ofLocalPart "i")⟩)) := by decide +kernel
  rcases @compile_of_step {} _ _ _ "T" [] rfl (by decide) (by decide) firstResolves rfl with
    ⟨firstMethod, firstUnit, firstCompiled⟩
  rcases @compile_of_step {} _ _ _ "T" [.compile "name(child::i)"] rfl (by decide) (by decide)
    secondResolves rfl with ⟨secondMethod, secondUnit, secondCompiled⟩
  rcases nameTests_sameType_iff "T" {} [] [] firstResolves rfl firstCompiled secondResolves rfl
    secondCompiled with ⟨firstType, secondType, pushesFirst, pushesSecond, _, sameType⟩
  have plain (uri : String) : (QName.ofLocalPart "i").namespaceUri ≠ "@" ++ uri := by
    simp [QName.namespaceUri, QName.ofLocalPart]
  refine ⟨firstMethod, secondMethod, firstUnit, secondUnit, firstType, secondType, firstCompiled,
    secondCompiled, pushesFirst, pushesSecond, ?_⟩
  rw [Ne, sameType (by decide) (by decide) plain plain]
  rintro ⟨sameKind, _, _⟩
  cases sameKind

section SameKey

variable {firstSource secondSource : String} {firstCall secondCall : NameCall}
  {firstAxis secondAxis : Axis} {first second : QName}

/-- Sources with name tests of one key, compiled one after the other, push one type. -/
theorem sameType_of_sameKey (className : String) (names : config.NamesIterator)
    (room : 62 ≤ min config.maxPoolEntries poolCapacity)
    (firstResolves : resolvedCall config firstSource = .ok firstCall)
    (firstTests : firstCall.operand = some (.step ⟨firstAxis, .name first⟩))
    (secondResolves : resolvedCall config secondSource = .ok secondCall)
    (secondTests : secondCall.operand = some (.step ⟨secondAxis, .name second⟩))
    (sameKey : NodeTypes.keyOf firstAxis first = NodeTypes.keyOf secondAxis second) :
    ∃ firstMethod secondMethod firstUnit secondUnit type,
      compile firstSource (after className config []) = .ok firstMethod firstUnit ∧
      compile secondSource (after className config [.compile firstSource]) =
        .ok secondMethod secondUnit ∧
      firstUnit.pushedType? firstMethod = some type ∧
      secondUnit.pushedType? secondMethod = some type := by
  rcases @compile_of_step config _ _ _ className [] rfl names (Nat.le_trans (by decide) room)
    firstResolves firstTests with ⟨firstMethod, firstUnit, firstCompiled⟩
  rcases @compile_of_step config _ _ _ className [.compile firstSource] rfl names room
    secondResolves secondTests with ⟨secondMethod, secondUnit, secondCompiled⟩
  rcases pushedTypes_eq_iff_keys firstResolves firstTests firstCompiled secondResolves secondTests
    secondCompiled with ⟨firstType, secondType, pushesFirst, pushesSecond, sameType⟩
  rw [sameType.mpr sameKey] at pushesFirst
  exact ⟨firstMethod, secondMethod, firstUnit, secondUnit, secondType, firstCompiled,
    secondCompiled, pushesFirst, pushesSecond⟩

end SameKey

/-- An element and a namespace get one type, and so do an element and an attribute that collide. -/
theorem nameTests_sameType_otherKind :
    (∃ firstMethod secondMethod firstUnit secondUnit type,
      compile "name(child::i)" (after "T" {} []) = .ok firstMethod firstUnit ∧
      compile "name(namespace::i)" (after "T" {} [.compile "name(child::i)"]) =
        .ok secondMethod secondUnit ∧
      firstUnit.pushedType? firstMethod = some type ∧
      secondUnit.pushedType? secondMethod = some type) ∧
    Axis.child.principalKind ≠ Axis.namespaceAxis.principalKind ∧
    (∃ firstMethod secondMethod firstUnit secondUnit type,
      compile "name(child::p:i)" (after "T"
          ((Config.bindNamespace {} "p" "@urn:x").bindNamespace "q" "urn:x") []) =
        .ok firstMethod firstUnit ∧
      compile "name(attribute::q:i)" (after "T"
          ((Config.bindNamespace {} "p" "@urn:x").bindNamespace "q" "urn:x")
          [.compile "name(child::p:i)"]) =
        .ok secondMethod secondUnit ∧
      firstUnit.pushedType? firstMethod = some type ∧
      secondUnit.pushedType? secondMethod = some type) ∧
    Axis.child.principalKind ≠ Axis.attributeAxis.principalKind := by
  refine ⟨?_, by decide, ?_, by decide⟩
  · exact @sameType_of_sameKey {} "name(child::i)" "name(namespace::i)"
      (.onOperand .name (.ofLocalPart "name") (.step ⟨.child, .name (.ofLocalPart "i")⟩))
      (.onOperand .name (.ofLocalPart "name") (.step ⟨.namespaceAxis, .name (.ofLocalPart "i")⟩))
      _ _ _ _ "T" (by decide) (by decide) (by decide +kernel) rfl (by decide +kernel) rfl
      (by decide)
  · exact @sameType_of_sameKey _ "name(child::p:i)" "name(attribute::q:i)"
      (.onOperand .name (.ofLocalPart "name") (.step ⟨.child, .name ⟨some "p", "i", some "@urn:x"⟩⟩))
      (.onOperand .name (.ofLocalPart "name")
        (.step ⟨.attributeAxis, .name ⟨some "q", "i", some "urn:x"⟩⟩))
      _ _ _ _ "T" (by decide) (by decide) (by decide +kernel) rfl (by decide +kernel) rfl
      (by decide)

end CompileUnit

end NodeNames
