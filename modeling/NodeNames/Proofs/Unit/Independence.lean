import NodeNames.Proofs.NameCall.Symbolic
import NodeNames.Proofs.Unit.Growth
/-!
# Independence of history

What a unit has compiled before shows in the numbers that the code of a call
refers to, and in nothing else. In symbolic form, units that have the same
variables give the same code to a source.
-/

namespace NodeNames

/-- Variables in their order, each by what its name identifies, with their types. -/
def variableTypes (declared : List (QName × ValueType)) : List (ExpandedName × ValueType) :=
  declared.map fun entry => (entry.1.expandedName, entry.2)

/-- The places of variables do not depend on the qualifiers of their names. -/
theorem placeOf?_congr {first second : List (QName × ValueType)}
    (same : variableTypes first = variableTypes second) (slot : Nat) (name : QName) :
    placeOf? slot first name = placeOf? slot second name := by
  induction first generalizing second slot with
  | nil =>
      cases second with
      | nil => rfl
      | cons entry others => cases same
  | cons entry others ih =>
      cases second with
      | nil => cases same
      | cons other rest =>
          rcases entry with ⟨firstName, firstType⟩
          rcases other with ⟨secondName, secondType⟩
          simp only [variableTypes, List.map_cons, List.cons.injEq, Prod.mk.injEq] at same
          rcases same with ⟨⟨sameName, rfl⟩, sameOthers⟩
          rw [placeOf?, placeOf?, sameName, ih sameOthers]

theorem typeOf?_congr {first second : List (QName × ValueType)}
    (same : variableTypes first = variableTypes second) : typeOf? first = typeOf? second := by
  funext name
  rw [← map_type_placeOf? 0, ← map_type_placeOf? 0, placeOf?_congr same]

namespace CompileUnit

/-- The code of a method with constants, references and keys in place of numbers. -/
def symbolicCode? (unit : CompileUnit) (method : CompiledMethod) :
    Option (List SymbolicInstruction) :=
  (method.code.decode? unit.classDraft.pool).bind fun plan =>
    plan.mapM (DecodedInstruction.symbolic? unit.classDraft.nodeTypes.names)

section TwoUnits

variable {config : Config} {firstDeclared secondDeclared : List (QName × ValueType)}
  {first second firstLater secondLater : CompileUnit}

/-- Methods of units with the same variables have the same slots. -/
theorem Started.sameSlots {firstSlots secondSlots : MethodDraft}
    (same : variableTypes firstDeclared = variableTypes secondDeclared)
    (firstStarted : first.Started config firstDeclared firstSlots)
    (secondStarted : second.Started config secondDeclared secondSlots) :
    firstSlots.SameSlots secondSlots where
  documentSlot :=
    firstStarted.reserves.documentSlot.trans secondStarted.reserves.documentSlot.symm
  contextNodeSlot :=
    firstStarted.reserves.contextNodeSlot.trans secondStarted.reserves.contextNodeSlot.symm
  local? name := by
    rw [firstStarted.local?, secondStarted.local?, placeOf?_congr same]

variable (firstDescribes : first.Describes config firstDeclared)
  (secondDescribes : second.Describes config secondDeclared)
  (same : variableTypes firstDeclared = variableTypes secondDeclared)

include firstDescribes secondDescribes same

/-- A call that two units with the same variables compile is compiled alike. -/
theorem alike_of_compileCall {call : NameCall} {firstSource secondSource : String}
    {firstMethod secondMethod : CompiledMethod}
    (firstCompiled : compileCall call firstSource first = .ok firstMethod firstLater)
    (secondCompiled : compileCall call secondSource second = .ok secondMethod secondLater) :
    firstMethod.function = secondMethod.function ∧
      firstMethod.resultType = secondMethod.resultType ∧
      firstMethod.maxStack = secondMethod.maxStack ∧
      ∃ code, firstLater.symbolicCode? firstMethod = some code ∧
        secondLater.symbolicCode? secondMethod = some code := by
  rcases compiled_of_compileCall firstDescribes firstCompiled with
    ⟨type, firstSlots, firstTyped, _, _, firstStarted, _, isFirst⟩
  rcases compiled_of_compileCall secondDescribes secondCompiled with
    ⟨secondType, secondSlots, secondTyped, _, _, secondStarted, _, isSecond⟩
  have sameType : secondType = type := by
    rw [typeOf?_congr same, secondTyped] at firstTyped
    exact Option.some.inj firstTyped
  subst sameType
  have alike := @NameCall.emitAlike_script config firstSlots _ _ firstDescribes.types
    secondDescribes.types { call with operandType := some secondType } (by simp)
  rw [NameCall.script_congr (firstStarted.sameSlots same secondStarted) config
    second.classDraft.nodeTypes, ← isSecond.types, ← isFirst.types] at alike
  rcases DecodedInstruction.mapM_symbolic?_of_alike alike with ⟨code, isFirstCode, isSecondCode⟩
  refine ⟨?_, ?_, ?_, code, ?_, ?_⟩
  · rw [isFirst.isMethod, isSecond.isMethod]
  · rw [isFirst.isMethod, isSecond.isMethod]
  · rw [isFirst.isMethod, isSecond.isMethod]
  · rw [symbolicCode?, isFirst.decode?]
    exact isFirstCode
  · rw [symbolicCode?, isSecond.decode?]
    exact isSecondCode

end TwoUnits

/--
The integers that compiled code pushes for named nodes are those of words of thirty-two bits, unless
there have been more operations than there are such words.
-/
theorem toInt_pushed_of_answer (className : String) (config : Config)
    {history : List UnitOperation} (few : history.length < 2 ^ 31 - firstNamedType)
    {operation : UnitOperation} {method : CompiledMethod}
    (answered : operation.answer (after className config history) = .ok (some method))
    {instructions : List DecodedInstruction}
    (decodes : method.code.decode?
      (operation.perform (after className config history)).classDraft.pool = some instructions)
    {value : Int} (isPushed : .pushInteger value ∈ instructions)
    (isNamed : firstNamedType ≤ value) : (Int32.ofInt value).toInt = value := by
  have describes := describes_after className config history
  rcases compileCall_of_answer describes answered with ⟨call, source, succeeds⟩
  rcases compiled_of_compileCall describes succeeds with
    ⟨type, slots, _, _, _, _, _, isCompiled⟩
  rw [isCompiled.decode?] at decodes
  cases decodes
  have alike := @NameCall.emitAlike_script config slots _ _ describes.types describes.types
    { call with operandType := some type } (by simp)
  rw [← isCompiled.types, perform_after] at alike
  rcases List.forall₂_same.mp alike _ isPushed with ⟨symbol, stands, _⟩
  have below := DecodedInstruction.lt_of_symbolic? stands
  have bounded := length_names_after_le className config (history ++ [operation])
  rw [List.length_append, List.length_singleton] at bounded
  have isWord : firstNamedType ≤ 2 ^ 31 := by decide
  exact Int32.toInt_ofInt_of_le (by omega) (by omega)

/--
Whatever has been done to two units, if they have come to the same variables in the same order, a
source that both compile is compiled alike: to a method for the same function, with the same type
and the same greatest depth, and to the same code but for the numbers of constants and of names. The
numbers of names are those of words under the bound of `toInt_pushed_of_answer`.
-/
theorem independent_of_history (config : Config) (firstName secondName : String)
    (firstHistory secondHistory : List UnitOperation)
    (same : variableTypes (after firstName config firstHistory).declared =
      variableTypes (after secondName config secondHistory).declared)
    (source : String) {first second : CompiledMethod} {firstUnit secondUnit : CompileUnit}
    (firstCompiled : compile source (after firstName config firstHistory) = .ok first firstUnit)
    (secondCompiled :
      compile source (after secondName config secondHistory) = .ok second secondUnit) :
    first.function = second.function ∧ first.resultType = second.resultType ∧
      first.maxStack = second.maxStack ∧
      ∃ code, firstUnit.symbolicCode? first = some code ∧
        secondUnit.symbolicCode? second = some code := by
  have firstDescribes := describes_after firstName config firstHistory
  have secondDescribes := describes_after secondName config secondHistory
  rw [firstDescribes.sameDeclared, secondDescribes.sameDeclared] at same
  rcases compileCall_of_compile firstDescribes firstCompiled with
    ⟨call, resolves, firstCallCompiled⟩
  rcases compileCall_of_compile secondDescribes secondCompiled with
    ⟨secondCall, secondResolves, secondCallCompiled⟩
  rw [resolves, Except.ok.injEq] at secondResolves
  subst secondResolves
  exact alike_of_compileCall firstDescribes secondDescribes same firstCallCompiled
    secondCallCompiled

/-- A name test in a new unit, and in one that has registered another name before. -/
theorem independent_of_history_nameTest :
    ∃ first second firstUnit secondUnit,
      compile "name(b)" (after "A" {} []) = .ok first firstUnit ∧
      compile "name(b)" (after "B" {} [.compile "name(a)"]) = .ok second secondUnit ∧
      first.maxStack = second.maxStack ∧
      ∃ code, firstUnit.symbolicCode? first = some code ∧
        secondUnit.symbolicCode? second = some code := by
  rcases compile_of_few "A" {} [] "name(b)" (by decide +kernel) (by decide) with
    ⟨first, firstUnit, firstCompiled⟩
  rcases compile_of_few "B" {} [.compile "name(a)"] "name(b)" (by decide +kernel) (by decide) with
    ⟨second, secondUnit, secondCompiled⟩
  have same := (describes_after "A" {} []).sameDeclared.trans
    (describes_after "B" {} [.compile "name(a)"]).sameDeclared.symm
  have alike := independent_of_history {} "A" "B" [] [.compile "name(a)"]
    (congrArg variableTypes same) "name(b)" firstCompiled secondCompiled
  exact ⟨first, second, firstUnit, secondUnit, firstCompiled, secondCompiled, alike.2.2⟩

end CompileUnit

end NodeNames
